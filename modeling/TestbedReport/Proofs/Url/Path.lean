import Mathlib.Data.List.DropRight
import TestbedReport.Proofs.Url.Host
import TestbedReport.Proofs.Url.Query

/-!
# A Path That Goes On

A path is read in segments, and the last segment is read a little differently: a
dot segment at the end leaves a slash behind, the same segment in the middle
vanishes. So what a path is by itself and what it is with a resource behind it are
two readings. They agree up to slashes at the end, and the one with the resource
is the reading without any last segment, with the resource added as it is.

## Main definitions

* `Url.withoutSlashes`: A text without the slashes at its end.
* `Url.openSegments`: The segments of a path that goes on.
* `Url.isResourceChar`: What a resource is made of.

## Theorems

* `Url.write_parsePath_append`: A path with a resource behind it.
* `Url.withoutSlashes_parsePath`: A path by itself, up to slashes at its end.
* `Url.length_openSegments_lt`: Blanks at the end of a path make it longer.
-/

namespace TestbedReport

namespace Url

/-- A text without the slashes at its end. -/
def withoutSlashes (cs : List Char) : List Char :=
  cs.rdropWhile (· = '/')

/-- What a resource is made of: letters, digits, low lines and slashes. -/
def isResourceChar (c : Char) : Bool :=
  c.isAlphanum || c = '_' || c = '/'

/-- What holds of all that a resource is made of can be checked one by one. -/
theorem forall_isResourceChar (p : Char → Prop) [DecidablePred p]
    (h : ∀ n < 0x80, isResourceChar (Char.ofNat n) = true → p (Char.ofNat n)) {c : Char}
    (hc : isResourceChar c = true) : p c := by
  have hcode : c.toNat < 0x80 := by
    simp only [isResourceChar, Bool.or_eq_true, decide_eq_true_eq] at hc
    rcases hc with (halnum | hmark) | hslash
    · exact Form.toNat_lt_of_isAlphanum halnum
    · rw [hmark]
      decide
    · rw [hslash]
      decide
  have hall := h c.toNat hcode
  rw [Char.ofNat_toNat] at hall
  exact hall hc

section Slashes

theorem isSlash_of_isBlank (port : Nat) {c : Char} (hc : isBlank c = true) :
    (SchemeKind.web port).isSlash c = false := by
  have hmarks : c ≠ '/' ∧ c ≠ '\\' :=
    forall_isBlank (fun c => c ≠ '/' ∧ c ≠ '\\') (by decide) hc
  simp [SchemeKind.isSlash, hmarks.1, hmarks.2]

theorem withoutSlashes_append_replicate (cs : List Char) (n : Nat) :
    withoutSlashes (cs ++ List.replicate n '/') = withoutSlashes cs := by
  induction n with
  | zero => rw [List.replicate_zero, List.append_nil]
  | succ n ih =>
      rw [List.replicate_succ', ← List.append_assoc, withoutSlashes,
        List.rdropWhile_concat_pos _ _ _ (by decide)]
      exact ih

/-- A text is what is left of it with some slashes behind. -/
theorem exists_replicate_withoutSlashes (cs : List Char) :
    ∃ n, cs = withoutSlashes cs ++ List.replicate n '/' := by
  induction cs using List.reverseRecOn with
  | nil => exact ⟨0, rfl⟩
  | append_singleton rest c ih =>
      -- The induction is from the end, where the slashes are.
      by_cases hc : c = '/'
      · rcases ih with ⟨n, hn⟩
        refine ⟨n + 1, ?_⟩
        rw [withoutSlashes, List.rdropWhile_concat_pos _ _ _ (by simpa using hc),
          List.replicate_succ', ← List.append_assoc, hc]
        exact congrArg (· ++ ['/']) hn
      · refine ⟨0, ?_⟩
        rw [withoutSlashes, List.rdropWhile_concat_neg _ _ _ (by simpa using hc),
          List.replicate_zero, List.append_nil]

theorem length_withoutSlashes_le (cs : List Char) : (withoutSlashes cs).length ≤ cs.length :=
  (List.rdropWhile_prefix (· = '/') cs).length_le

theorem withoutSlashes_eq_self_iff (cs : List Char) :
    withoutSlashes cs = cs ↔ cs.getLast? ≠ some '/' := by
  cases cs using List.reverseRecOn with
  | nil => exact ⟨fun _ => by simp, fun _ => rfl⟩
  | append_singleton rest c =>
      rw [List.getLast?_concat, withoutSlashes, List.rdropWhile_concat]
      by_cases hc : c = '/'
      · -- What is left is shorter than the text with its last slash.
        have hshort : rest.rdropWhile (· = '/') ≠ rest ++ ['/'] := by
          intro h
          have hlength := length_withoutSlashes_le rest
          rw [withoutSlashes, h, List.length_append, List.length_singleton] at hlength
          omega
        simp [hc, hshort]
      · simp [hc]

end Slashes

section Segments

/-- What is added for a segment that no other follows differs by a slash at most. -/
theorem addSegment_last (kind : SchemeKind) (before : List String) (segment : List Char) :
    addSegment kind before segment true = addSegment kind before segment false ∨
      addSegment kind before segment true = addSegment kind before segment false ++ [""] := by
  rw [addSegment, addSegment]
  split
  · exact .inr rfl
  · split
    · exact .inr rfl
    · exact .inl rfl

/-- The segments behind others, when none of them is the last. -/
def passSegments (kind : SchemeKind) (before : List String) (segments : List (List Char)) :
    List String :=
  segments.foldl (fun before segment => addSegment kind before segment false) before

/-- The segments of a path that goes on. -/
def openSegments (kind : SchemeKind) : List Char → List String
  | [] => []
  | _ :: rest => passSegments kind [] (splitSegments kind rest)

theorem resolveSegments_append (kind : SchemeKind) (before : List String)
    (segments more : List (List Char)) (hmore : more ≠ []) :
    resolveSegments kind before (segments ++ more) =
      resolveSegments kind (passSegments kind before segments) more := by
  induction segments generalizing before with
  | nil => rfl
  | cons segment rest ih =>
      -- With more behind them, none of these segments is the last one.
      have hcons : ∃ next tail, rest ++ more = next :: tail :=
        List.exists_cons_of_ne_nil (by simp [hmore])
      rcases hcons with ⟨next, tail, hnext⟩
      rw [List.cons_append, hnext, resolveSegments, ← hnext, ih]
      · rfl
      · exact fun h => nomatch h

theorem splitSegments_append (kind : SchemeKind) (path more : List Char) :
    splitSegments kind (path ++ '/' :: more) =
      splitSegments kind path ++ splitSegments kind more := by
  have hslash : kind.isSlash '/' = true := rfl
  rw [splitSegments, List.map_append, List.map_cons, hslash, if_pos rfl,
    Text.splitOn_append_cons]
  rfl

end Segments

section Dots

/-- The forms of one dot and of two. -/
def dotForms : List (List Char) :=
  ["..", "%2e.", ".%2e", "%2e%2e", ".", "%2e"].map String.toList

/-- A segment of dots has one of these forms, up to case. -/
theorem mem_dotForms {segment : List Char}
    (h : isDoubleDot segment = true ∨ isSingleDot segment = true) :
    segment.map Char.toLower ∈ dotForms := by
  have htext : ∀ texts : List String,
      texts.contains (String.ofList (segment.map Char.toLower)) = true →
        segment.map Char.toLower ∈ texts.map String.toList := by
    intro texts hcontains
    refine List.mem_map.mpr ⟨_, List.contains_iff_mem.mp hcontains, ?_⟩
    rw [String.toList_ofList]
  -- The forms of two dots come first in the list, then those of one.
  have hforms : dotForms = ["..", "%2e.", ".%2e", "%2e%2e"].map String.toList ++
      [".", "%2e"].map String.toList := rfl
  rw [hforms, List.mem_append]
  exact h.imp (htext _) (htext _)

/-- A segment with a blank in it is no dots. -/
theorem not_mem_dotForms_of_isBlank {segment : List Char} {c : Char} (hc : c ∈ segment)
    (hblank : isBlank c = true) : segment.map Char.toLower ∉ dotForms := by
  intro hmem
  have hform : ∀ form ∈ dotForms, form.any isBlank = false := by decide
  have hlower : isBlank c.toLower = true :=
    forall_isBlank (fun c => isBlank c.toLower = true) (by decide) hblank
  exact List.any_eq_false.mp (hform _ hmem) _ (List.mem_map.mpr ⟨c, hc, rfl⟩) hlower

/-- A segment is added as it is, in percent forms, unless it is dots. -/
theorem addSegment_of_not_dots (port : Nat) (before : List String) (segment : List Char)
    (isLast : Bool) (h : segment.map Char.toLower ∉ dotForms) :
    addSegment (.web port) before segment isLast =
      before ++ [String.ofList (Percent.encode Percent.inPath segment)] := by
  have hdouble : isDoubleDot segment = false :=
    Bool.eq_false_iff.mpr fun hdots => h (mem_dotForms (.inl hdots))
  have hsingle : isSingleDot segment = false :=
    Bool.eq_false_iff.mpr fun hdots => h (mem_dotForms (.inr hdots))
  simp [addSegment, hdouble, hsingle]

end Dots

section Resources

variable (port : Nat)

theorem addSegment_resource (before : List String) (segment : List Char) (isLast : Bool)
    (hsegment : ∀ c ∈ segment, isResourceChar c = true) :
    addSegment (.web port) before segment isLast = before ++ [String.ofList segment] := by
  have hdots : segment.map Char.toLower ∉ dotForms := by
    intro hmem
    -- Every form has a dot or a percent sign, and a resource has neither.
    have hmarked : ∀ form ∈ dotForms, form.any (fun c => c = '.' ∨ c = '%') = true := by decide
    rcases List.any_eq_true.mp (hmarked _ hmem) with ⟨c, hc, hmark⟩
    rcases List.mem_map.mp hc with ⟨d, hd, hlower⟩
    have hplain : d.toLower ≠ '.' ∧ d.toLower ≠ '%' :=
      forall_isResourceChar (fun c => c.toLower ≠ '.' ∧ c.toLower ≠ '%') (by decide)
        (hsegment d hd)
    rw [hlower] at hplain
    exact (of_decide_eq_true hmark).elim hplain.1 hplain.2
  have hencode : Percent.encode Percent.inPath segment = segment := by
    have hkept : ∀ c ∈ segment, Percent.encodeChar Percent.inPath c = [c] := fun c hc =>
      forall_isResourceChar (fun c => Percent.encodeChar Percent.inPath c = [c]) (by decide)
        (hsegment c hc)
    rw [Percent.encode, List.flatMap_congr hkept, List.flatMap_singleton']
  rw [addSegment_of_not_dots port before segment isLast hdots, hencode]

/-- Segments that are added as they are stand behind those that are there already. -/
theorem resolveSegments_of_kept {kind : SchemeKind} (before : List String)
    (segments : List (List Char)) (hkept : ∀ segment ∈ segments, ∀ before isLast,
      addSegment kind before segment isLast = before ++ [String.ofList segment]) :
    resolveSegments kind before segments = before ++ segments.map String.ofList := by
  induction segments generalizing before with
  | nil => rw [resolveSegments, List.map_nil, List.append_nil]
  | cons segment rest ih =>
      rw [List.forall_mem_cons] at hkept
      cases rest with
      | nil => rw [resolveSegments, hkept.1]; rfl
      | cons next tail =>
          rw [resolveSegments, hkept.1, ih _ hkept.2, List.append_assoc]
          · rfl
          · exact fun h => nomatch h

/-- Without a backslash only slashes separate segments. -/
theorem splitSegments_of_not_mem {cs : List Char} (h : '\\' ∉ cs) :
    -- Of the characters that count as slashes only the slash itself is left.
    splitSegments (.web port) cs = Text.splitOn '/' cs := by
  have hkept : ∀ c ∈ cs, (if (SchemeKind.web port).isSlash c then '/' else c) = c := by
    intro c hc
    have hback : c ≠ '\\' := fun heq => h (heq ▸ hc)
    split
    · next hslash =>
      simp [SchemeKind.isSlash, SchemeKind.isSpecial, hback] at hslash
      exact hslash.symm
    · rfl
  rw [splitSegments, List.map_congr_left hkept, List.map_id']

/-- **A path with a resource behind it** is the path that goes on with the resource
    as it is. -/
theorem write_parsePath_append (path resource : List Char)
    (hpath : ∀ c ∈ path.head?, (SchemeKind.web port).isSlash c = true)
    (hresource : ∀ c ∈ resource, isResourceChar c = true) :
    (parsePath (.web port) (path ++ '/' :: resource)).write =
      (UrlPath.segments (openSegments (.web port) path)).write ++ '/' :: resource := by
  have hparse : parsePath (.web port) (path ++ '/' :: resource) =
      .segments (resolveSegments (.web port) (openSegments (.web port) path)
        (splitSegments (.web port) resource)) := by
    have hresolved : ∀ before, resolveSegments (.web port) [] (before ++
        splitSegments (.web port) resource) = resolveSegments (.web port)
          (passSegments (.web port) [] before) (splitSegments (.web port) resource) := fun before =>
      resolveSegments_append _ [] before _ (Text.splitOn_ne_nil _ _)
    cases path with
    | nil =>
        have hslash : (SchemeKind.web port).isSlash '/' = true := rfl
        simp [parsePath, hslash, openSegments]
    | cons c rest =>
        have hslash : (SchemeKind.web port).isSlash c = true := hpath c rfl
        simp [parsePath, hslash, openSegments, splitSegments_append, hresolved]
  have hsegments : ∀ segment ∈ Text.splitOn '/' resource, ∀ c ∈ segment,
      isResourceChar c = true := fun segment hsegment c hc =>
    hresource c (Text.mem_of_mem_splitOn hsegment hc).1
  -- A resource is split at its slashes alone, for it has no backslash.
  have hback : '\\' ∉ resource := fun hmem => absurd (hresource _ hmem) (by decide)
  rw [hparse, splitSegments_of_not_mem port hback,
    resolveSegments_of_kept _ _ fun segment hsegment before isLast =>
      addSegment_resource port before segment isLast (hsegments segment hsegment),
    UrlPath.write, UrlPath.write, List.flatMap_append,
    ← Text.flatMap_splitOn, List.flatMap_map]
  simp only [String.toList_ofList]

/-- **A path by itself** is the path that goes on, up to slashes at the end. -/
theorem withoutSlashes_parsePath (path : List Char)
    (hpath : ∀ c ∈ path.head?, (SchemeKind.web port).isSlash c = true) :
    withoutSlashes (parsePath (.web port) path).write =
      withoutSlashes (UrlPath.segments (openSegments (.web port) path)).write := by
  cases path with
  | nil => rfl
  | cons c rest =>
      have hslash : (SchemeKind.web port).isSlash c = true := hpath c rfl
      rcases List.eq_nil_or_concat (splitSegments (.web port) rest) with hnil | ⟨init, last, hlast⟩
      · exact absurd hnil (Text.splitOn_ne_nil _ _)
      · rw [List.concat_eq_append] at hlast
        have hparse : parsePath (.web port) (c :: rest) = .segments
            (addSegment (.web port) (passSegments (.web port) [] init) last true) := by
          have hresolved := resolveSegments_append (.web port) [] init [last] (by simp)
          simp [parsePath, hslash, hlast, hresolved, resolveSegments]
        have hopen : openSegments (.web port) (c :: rest) =
            addSegment (.web port) (passSegments (.web port) [] init) last false := by
          rw [openSegments, hlast, passSegments, List.foldl_append]
          rfl
        -- Both are the same up to the last segment.
        rw [hparse, hopen]
        rcases addSegment_last (.web port) (passSegments (.web port) [] init) last with
          hsame | hmore
        · rw [hsame]
        · rw [hmore, UrlPath.write, UrlPath.write, List.flatMap_append]
          exact withoutSlashes_append_replicate _ 1

/-- Two dots take the last segment off and leave the others. -/
theorem dropSegment_kept (before : List String) : dropSegment (.web port) before <+: before := by
  rcases before with _ | ⟨first, _ | ⟨second, rest⟩⟩
  · exact List.prefix_rfl
  · exact List.nil_prefix
  · exact List.dropLast_prefix _

/-- What is written for a segment is no longer than the segment. -/
theorem length_addSegment_le (before : List String) (segment : List Char) :
    (UrlPath.segments (addSegment (.web port) before segment false)).write.length ≤
      (UrlPath.segments (before ++
        [String.ofList (Percent.encode Percent.inPath segment)])).write.length := by
  -- Two dots take a segment off, if there is one to take.
  have hdropped : (UrlPath.segments (dropSegment (.web port) before)).write.length ≤
      (UrlPath.segments before).write.length := by
    rcases dropSegment_kept port before with ⟨dropped, hdropped⟩
    conv_rhs => rw [← hdropped]
    rw [UrlPath.write, UrlPath.write, List.flatMap_append, List.length_append]
    omega
  have hbefore : (UrlPath.segments before).write.length ≤ (UrlPath.segments (before ++
      [String.ofList (Percent.encode Percent.inPath segment)])).write.length := by
    rw [UrlPath.write, UrlPath.write, List.flatMap_append, List.length_append]
    omega
  by_cases hdouble : isDoubleDot segment = true
  · simp only [addSegment, hdouble, if_true, Bool.false_eq_true, if_false]
    exact Nat.le_trans hdropped hbefore
  · by_cases hsingle : isSingleDot segment = true
    · simp only [addSegment, hdouble, hsingle, if_true, Bool.false_eq_true, if_false]
      exact hbefore
    · simp [addSegment, hdouble, hsingle]

/-- Blanks at the end of a path make it longer. -/
theorem length_openSegments_lt (path blanks : List Char) (hpath : path ≠ [])
    (hnonempty : blanks ≠ []) (hblanks : ∀ c ∈ blanks, isBlank c = true) :
    (UrlPath.segments (openSegments (.web port) path)).write.length <
      (UrlPath.segments (openSegments (.web port) (path ++ blanks))).write.length := by
  rcases List.exists_cons_of_ne_nil hpath with ⟨c, rest, hcons⟩
  have hkept : ∀ c ∈ blanks, (if (SchemeKind.web port).isSlash c then '/' else c) = c :=
    fun c hc => by rw [isSlash_of_isBlank port (hblanks c hc), if_neg Bool.false_ne_true]
  -- The blanks have no slash, so they are more of the last segment.
  have hslash : '/' ∉ blanks := fun hmem => absurd (hblanks '/' hmem) (by decide)
  rcases Text.splitOn_append_of_not_mem '/'
    (rest.map fun c => if (SchemeKind.web port).isSlash c then '/' else c) blanks hslash with
    ⟨init, last, hrest, hmore⟩
  have hopen : openSegments (.web port) path =
      addSegment (.web port) (passSegments (.web port) [] init) last false := by
    rw [hcons, openSegments, splitSegments, hrest, passSegments, List.foldl_append]
    rfl
  have hopenMore : openSegments (.web port) (path ++ blanks) =
      addSegment (.web port) (passSegments (.web port) [] init) (last ++ blanks) false := by
    rw [hcons, List.cons_append, openSegments, splitSegments, List.map_append,
      List.map_congr_left hkept, List.map_id', hmore, passSegments, List.foldl_append]
    rfl
  rcases List.exists_cons_of_ne_nil hnonempty with ⟨blank, more, hblank⟩
  have hisBlank : isBlank blank = true := hblanks blank (by rw [hblank]; exact List.mem_cons_self)
  have hdots : (last ++ blanks).map Char.toLower ∉ dotForms :=
    not_mem_dotForms_of_isBlank (by rw [hblank]; simp) hisBlank
  have hencoded : 0 < (Percent.encode Percent.inPath blanks).length := by
    have hchar : 0 < (Percent.encodeChar Percent.inPath blank).length :=
      forall_isBlank (fun c => 0 < (Percent.encodeChar Percent.inPath c).length) (by decide)
        hisBlank
    rw [hblank, Percent.encode, List.flatMap_cons, List.length_append]
    omega
  -- As dots the last segment vanishes, or takes one with it. With blanks it stays.
  have hshort := length_addSegment_le port (passSegments (.web port) [] init) last
  rw [hopen, hopenMore, addSegment_of_not_dots port _ _ _ hdots]
  refine Nat.lt_of_le_of_lt hshort ?_
  have hencode : Percent.encode Percent.inPath (last ++ blanks) =
      Percent.encode Percent.inPath last ++ Percent.encode Percent.inPath blanks :=
    List.flatMap_append
  simp only [UrlPath.write, hencode, List.flatMap_append, List.flatMap_cons, List.flatMap_nil,
    String.toList_ofList, List.length_append, List.length_cons, List.length_nil]
  omega

end Resources

end Url

end TestbedReport
