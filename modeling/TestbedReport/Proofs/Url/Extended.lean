import TestbedReport.Proofs.Url.Path

/-!
# Reading a URL with a Resource Behind It

A base URL is read by itself when it is checked, and once more for every request,
with a resource pasted behind it. These are two readings of two texts. Here they
are compared, in the order in which a text is read: blanks, scheme, query and
fragment, authority, path.

Three things can happen. A base URL with a mark of its own, of a query or a
fragment, takes the resource into that and its path does not change. One that ends
in a blank has the blank in its middle then: behind the host there is no URL, behind
a path there is a longer one. Every other has the same authority in both readings
and its path goes on with the resource.

## Main definitions

* `Url.isKept`: What counts inside of a URL.
* `Url.begun`: What counts of a text that goes on.
* `Url.EndsPlain`: A text whose end counts by itself.
* `Url.isMark`: The marks that end a path.
* `Url.hostPart`, `Url.wayPart`: What of a text is its authority, and its path.

## Theorems

* `Url.strip_append`: What counts of a text with a resource behind it.
* `Url.strip_cases`: What counts of a text by itself.
* `Url.splitScheme?_eq_some_iff`: What a scheme is.
* `Url.parse_marked`: A text with a mark keeps its path.
* `Url.parse_plain`: A text that ends plain keeps its authority.
* `Url.parse_blank`: A text that ends in a blank does not keep its place.
-/

namespace TestbedReport

namespace Url

section Blanks

/-- What counts inside of a URL: all but tabs and line breaks. -/
def isKept (c : Char) : Bool :=
  c ≠ '\t' ∧ c ≠ '\n' ∧ c ≠ '\r'

theorem strip_eq (cs : List Char) :
    strip cs = ((cs.dropWhile isBlank).rdropWhile isBlank).filter isKept :=
  rfl

/-- What counts of a text that goes on. -/
def begun (cs : List Char) : List Char :=
  (cs.dropWhile isBlank).filter isKept

/-- A text whose end counts by itself: the last character that counts is no
    blank. -/
def EndsPlain (cs : List Char) : Prop :=
  ∀ c ∈ (cs.filter isKept).getLast?, isBlank c = false

theorem isBlank_resource {c : Char} (hc : isResourceChar c = true) : isBlank c = false :=
  forall_isResourceChar (fun c => isBlank c = false) (by decide) hc

theorem isKept_resource {c : Char} (hc : isResourceChar c = true) : isKept c = true :=
  forall_isResourceChar (fun c => isKept c = true) (by decide) hc

/-- With a resource behind it a text counts but for the blanks in front. -/
theorem strip_append (cs resource : List Char) (hnonempty : resource ≠ [])
    (hresource : ∀ c ∈ resource, isResourceChar c = true) :
    strip (cs ++ resource) = begun cs ++ resource := by
  have hfront : (cs ++ resource).dropWhile isBlank = cs.dropWhile isBlank ++ resource := by
    rw [List.dropWhile_append]
    split
    · next hempty =>
      -- Nothing in the text counts, and the resource is the first that does.
      rcases List.exists_cons_of_ne_nil hnonempty with ⟨c, rest, hcons⟩
      have hc : isBlank c = false := isBlank_resource (hresource c (by rw [hcons]; simp))
      rw [List.isEmpty_iff.mp hempty, hcons, List.dropWhile_cons_of_neg (by simp [hc])]
      rfl
    · rfl
  have hback : (cs.dropWhile isBlank ++ resource).rdropWhile isBlank =
      cs.dropWhile isBlank ++ resource := by
    rw [List.rdropWhile_eq_self_iff]
    intro hl
    rw [List.getLast_append_of_ne_nil hl hnonempty]
    have hlast := isBlank_resource (hresource _ (List.getLast_mem hnonempty))
    simp [hlast]
  have hkept : resource.filter isKept = resource :=
    List.filter_eq_self.mpr fun c hc => isKept_resource (hresource c hc)
  rw [strip_eq, hfront, hback, List.filter_append, hkept, begun]

/-- A text goes on as what counts of it, with the blanks at its end. -/
theorem exists_begun_eq (cs : List Char) :
    ∃ blanks, begun cs = strip cs ++ blanks ∧ ∀ c ∈ blanks, isBlank c = true := by
  refine ⟨((cs.dropWhile isBlank).rtakeWhile isBlank).filter isKept, ?_, ?_⟩
  · rw [strip_eq, ← List.filter_append, List.rdropWhile_append_rtakeWhile, begun]
  · intro c hc
    exact List.mem_rtakeWhile_imp (List.mem_of_mem_filter hc)

theorem isKept_of_not_isBlank {c : Char} (hc : isBlank c = false) : isKept c = true := by
  have hne : ∀ d, isBlank d = true → c ≠ d := by
    rintro d hd rfl
    rw [hd] at hc
    exact nomatch hc
  simp only [isKept, decide_eq_true_eq]
  exact ⟨hne '\t' rfl, hne '\n' rfl, hne '\r' rfl⟩

/-- What counts of a text by itself does not end in a blank. -/
theorem isBlank_getLast_strip {cs : List Char} {c : Char} (hc : c ∈ (strip cs).getLast?) :
    isBlank c = false := by
  rw [strip_eq] at hc
  cases hcounts : (cs.dropWhile isBlank).rdropWhile isBlank using List.reverseRecOn with
  | nil =>
      rw [hcounts] at hc
      exact nomatch hc
  | append_singleton rest last =>
      have hlast : isBlank last = false := by
        have hends := List.rdropWhile_last_not isBlank (cs.dropWhile isBlank)
          (by rw [hcounts]; simp)
        simp only [hcounts, List.getLast_concat] at hends
        exact Bool.eq_false_iff.mpr hends
      -- The last character is no blank, so it is not left out with the line breaks.
      have hkept : [last].filter isKept = [last] :=
        List.filter_cons_of_pos (isKept_of_not_isBlank hlast)
      rw [hcounts, List.filter_append, hkept, List.getLast?_concat] at hc
      rw [← Option.some.inj hc]
      exact hlast

/-- A text goes on without more blanks exactly if its end counts by itself. -/
theorem endsPlain_iff {cs blanks : List Char} (hcs : strip cs ≠ [])
    (hbegun : begun cs = strip cs ++ blanks) (hblanks : ∀ c ∈ blanks, isBlank c = true) :
    EndsPlain cs ↔ blanks = [] := by
  have hcounts : cs.filter isKept =
      ((cs.takeWhile isBlank).filter isKept ++ strip cs) ++ blanks := by
    rw [List.append_assoc, ← hbegun, begun, ← List.filter_append, List.takeWhile_append_dropWhile]
  rw [EndsPlain, hcounts]
  constructor
  · intro hplain
    -- With more blanks the last character would be one of them.
    by_contra hmore
    have hlast := hplain (blanks.getLast hmore) (by
      rw [List.getLast?_append_of_ne_nil _ hmore, List.getLast?_eq_some_getLast hmore]
      rfl)
    rw [hblanks _ (List.getLast_mem hmore)] at hlast
    exact nomatch hlast
  · intro hnone c hc
    rw [hnone, List.append_nil, List.getLast?_append_of_ne_nil _ hcs] at hc
    exact isBlank_getLast_strip hc

/-- **What counts of a text by itself** is what it goes on as, with slashes behind,
    or without the blanks at the end. -/
theorem strip_cases {cs : List Char} (hcs : strip cs ≠ []) :
    (EndsPlain cs ∧ ∃ n, strip cs = begun (withoutSlashes cs) ++ List.replicate n '/') ∨
      (¬EndsPlain cs ∧ ∃ blanks, blanks ≠ [] ∧ (∀ c ∈ blanks, isBlank c = true) ∧
        begun (withoutSlashes cs) = strip cs ++ blanks) := by
  rcases exists_replicate_withoutSlashes cs with ⟨n, hn⟩
  -- Behind a slash nothing is a blank, so the slashes are like a resource. Without
  -- one the text goes on as it is, and its end decides.
  cases n with
  | succ n =>
      have hslashes : ∀ c ∈ List.replicate (n + 1) '/', isResourceChar c = true := by
        intro c hc
        rw [List.eq_of_mem_replicate hc]
        decide
      refine .inl ⟨?_, n + 1, ?_⟩
      · intro c hc
        have hkept : ['/'].filter isKept = ['/'] := by decide
        rw [hn, List.filter_append, List.replicate_succ', List.filter_append, hkept,
          ← List.append_assoc, List.getLast?_concat] at hc
        rw [← Option.some.inj hc]
        decide
      · conv_lhs => rw [hn]
        exact strip_append _ _ (by simp) hslashes
  | zero =>
      rw [List.replicate_zero, List.append_nil] at hn
      rw [← hn]
      rcases exists_begun_eq cs with ⟨blanks, hbegun, hblanks⟩
      by_cases hnone : blanks = []
      · refine .inl ⟨(endsPlain_iff hcs hbegun hblanks).mpr hnone, 0, ?_⟩
        rw [hbegun, hnone, List.append_nil, List.replicate_zero, List.append_nil]
      · have hplain : ¬EndsPlain cs := fun h => hnone ((endsPlain_iff hcs hbegun hblanks).mp h)
        exact .inr ⟨hplain, blanks, hnone, hblanks, hbegun⟩

/-- A mark counts wherever it stands. -/
theorem mem_begun_iff {mark : Char} (hmark : isBlank mark = false) (cs : List Char) :
    mark ∈ begun cs ↔ mark ∈ cs := by
  rw [begun, List.mem_filter]
  constructor
  · exact fun h => (List.dropWhile_sublist _).mem h.1
  · intro h
    refine ⟨?_, isKept_of_not_isBlank hmark⟩
    rw [← List.takeWhile_append_dropWhile (p := isBlank) (l := cs), List.mem_append] at h
    -- In front there are only blanks, and the mark is none.
    rcases h with hfront | hback
    · have hblank := List.mem_takeWhile_imp hfront
      rw [hmark] at hblank
      exact nomatch hblank
    · exact hback

end Blanks

section Schemes

/-- What a scheme is made of. -/
def inScheme (c : Char) : Bool :=
  c.isAlphanum || c = '+' || c = '-' || c = '.'

/-- A scheme is what stands before the first colon, if it can be one. -/
theorem splitScheme?_eq_some_iff {cs rest : List Char} {scheme : String} :
    splitScheme? cs = some (scheme, rest) ↔
      ∃ first name, cs = first :: name ++ ':' :: rest ∧ (∀ c ∈ first :: name, inScheme c = true) ∧
        first.isAlpha = true ∧ scheme = String.ofList ((first :: name).map Char.toLower) := by
  have hin : (fun c : Char => c.isAlphanum || c = '+' || c = '-' || c = '.') = inScheme := rfl
  constructor
  · intro h
    rw [splitScheme?] at h
    simp only [hin] at h
    split at h
    · next first name tail hname hrest =>
      split at h
      · next halpha =>
        cases h
        refine ⟨first, name, ?_, ?_, halpha, by rw [hname]⟩
        · rw [← hname, ← hrest, List.takeWhile_append_dropWhile]
        · rw [← hname]
          exact fun c hc => List.mem_takeWhile_imp hc
      · cases h
    · cases h
  · rintro ⟨first, name, rfl, hname, halpha, rfl⟩
    -- The colon ends the scheme, because no scheme has one.
    have hcolon : inScheme ':' = false := by decide
    have htake : (first :: name ++ ':' :: rest).takeWhile inScheme = first :: name := by
      rw [List.takeWhile_append_of_pos hname, List.takeWhile_cons_of_neg (by simp [hcolon]),
        List.append_nil]
    have hdrop : (first :: name ++ ':' :: rest).dropWhile inScheme = ':' :: rest := by
      rw [List.dropWhile_append_of_pos hname, List.dropWhile_cons_of_neg (by simp [hcolon])]
    rw [splitScheme?]
    simp only [hin, htake, hdrop, halpha, if_true]

/-- A scheme does not depend on what is behind the text. -/
theorem splitScheme?_append {cs rest : List Char} {scheme : String}
    (h : splitScheme? cs = some (scheme, rest)) (more : List Char) :
    splitScheme? (cs ++ more) = some (scheme, rest ++ more) := by
  rcases splitScheme?_eq_some_iff.mp h with ⟨first, name, hcs, hname⟩
  refine splitScheme?_eq_some_iff.mpr ⟨first, name, ?_, hname⟩
  rw [hcs, List.append_assoc]
  rfl

/-- A scheme does not depend on what is taken off behind its colon either. -/
theorem splitScheme?_of_append {cs more rest : List Char} {scheme : String}
    (h : splitScheme? (cs ++ more) = some (scheme, rest)) (hcolon : ':' ∉ more) :
    ∃ kept, splitScheme? cs = some (scheme, kept) ∧ rest = kept ++ more := by
  rcases splitScheme?_eq_some_iff.mp h with ⟨first, name, hcs, hname⟩
  rcases List.append_eq_append_iff.mp hcs with ⟨middle, hfront, hback⟩ | ⟨middle, hfront, hback⟩
  · -- What is taken off would hold the colon.
    refine absurd ?_ hcolon
    rw [hback]
    exact List.mem_append_right _ List.mem_cons_self
  · cases middle with
    | nil =>
        refine absurd ?_ hcolon
        rw [List.nil_append] at hback
        rw [← hback]
        exact List.mem_cons_self
    | cons c kept =>
        rw [List.cons_append, List.cons.injEq] at hback
        refine ⟨kept, splitScheme?_eq_some_iff.mpr ⟨first, name, ?_, hname⟩, hback.2⟩
        rw [hfront, ← hback.1]

/-- Slashes can be taken off behind a scheme. -/
theorem splitScheme?_of_append_slashes {cs rest : List Char} {scheme : String} {n : Nat}
    (h : splitScheme? (cs ++ List.replicate n '/') = some (scheme, rest)) :
    ∃ kept, splitScheme? cs = some (scheme, kept) ∧ rest = kept ++ List.replicate n '/' :=
  splitScheme?_of_append h fun hmem => absurd (List.eq_of_mem_replicate hmem) (by decide)

/-- A mark that no scheme has is in the rest of the text. -/
theorem mem_of_splitScheme? {cs rest : List Char} {scheme : String} {mark : Char}
    (h : splitScheme? cs = some (scheme, rest)) (hmark : inScheme mark = false)
    (hcolon : mark ≠ ':') : mark ∈ rest ↔ mark ∈ cs := by
  -- Neither the scheme nor its colon is the mark, so only the rest can have it.
  rcases splitScheme?_eq_some_iff.mp h with ⟨first, name, hcs, hname, _⟩
  rw [hcs, List.mem_append, List.mem_cons (a := mark) (b := ':')]
  constructor
  · exact fun hrest => .inr (.inr hrest)
  · rintro (hfront | hmiddle | hrest)
    · rw [hname mark hfront] at hmark
      exact nomatch hmark
    · exact absurd hmiddle hcolon
    · exact hrest

end Schemes

section Marks

/-- The marks that end a path. -/
def isMark (c : Char) : Bool :=
  c = '?' || c = '#'

/-- What ends inside of a text does not see what is behind it. -/
theorem takeWhile_append_of_mem {p : Char → Bool} {cs : List Char} (h : ∃ c ∈ cs, p c = false)
    (more : List Char) : (cs ++ more).takeWhile p = cs.takeWhile p := by
  -- If nothing ended inside of the text, every character would pass.
  have hends : (cs.takeWhile p).length ≠ cs.length := by
    intro hlength
    rcases h with ⟨c, hc, hp⟩
    have hwhole := (List.takeWhile_prefix p).eq_of_length hlength
    have hall := List.takeWhile_eq_self_iff.mp hwhole c hc
    rw [hp] at hall
    exact nomatch hall
  rw [List.takeWhile_append, if_neg hends]

theorem splitTail_of_not_isMark (kind : SchemeKind) {cs : List Char}
    (h : ∀ c ∈ cs, isMark c = false) : splitTail kind cs = (cs, none, none) := by
  have hfragment : cs.takeWhile (· ≠ '#') = cs := List.takeWhile_eq_self_iff.mpr fun c hc => by
    have hmark := h c hc
    simp only [isMark, Bool.or_eq_false_iff, decide_eq_false_iff_not] at hmark
    simpa using hmark.2
  have hquery : cs.takeWhile (· ≠ '?') = cs := List.takeWhile_eq_self_iff.mpr fun c hc => by
    have hmark := h c hc
    simp only [isMark, Bool.or_eq_false_iff, decide_eq_false_iff_not] at hmark
    simpa using hmark.1
  simp only [splitTail, hfragment, hquery, List.drop_length]
  rfl

/-- A text with a mark takes everything behind it into its query or fragment. -/
theorem splitTail_append_of_isMark (kind : SchemeKind) {cs : List Char}
    (h : ∃ c ∈ cs, isMark c = true) (more : List Char) :
    (splitTail kind (cs ++ more)).1 = (splitTail kind cs).1 := by
  have hplace : ∀ text, (splitTail kind text).1 =
      (text.takeWhile (· ≠ '#')).takeWhile (· ≠ '?') := fun _ => rfl
  rw [hplace, hplace]
  -- The fragment is cut off first, so a question mark only counts without one.
  by_cases hfragment : '#' ∈ cs
  · rw [takeWhile_append_of_mem ⟨'#', hfragment, by decide⟩]
  · have hall : ∀ c ∈ cs, decide (c ≠ '#') = true := by
      intro c hc
      simpa using fun hmark : c = '#' => hfragment (hmark ▸ hc)
    rcases h with ⟨c, hc, hmark⟩
    have hquery : '?' ∈ cs := by
      simp only [isMark, Bool.or_eq_true, decide_eq_true_eq] at hmark
      rcases hmark with hmark | hmark
      · exact hmark ▸ hc
      · exact absurd (hmark ▸ hc) hfragment
    rw [List.takeWhile_append_of_pos hall, List.takeWhile_eq_self_iff.mpr hall]
    exact takeWhile_append_of_mem ⟨'?', hquery, by decide⟩ _

theorem isMark_append_resource {cs resource : List Char} (hcs : ∀ c ∈ cs, isMark c = false)
    (hresource : ∀ c ∈ resource, isResourceChar c = true) :
    ∀ c ∈ cs ++ '/' :: resource, isMark c = false := by
  intro c hc
  rcases List.mem_append.mp hc with hfront | hback
  · exact hcs c hfront
  · rcases List.mem_cons.mp hback with hslash | hin
    · rw [hslash]
      decide
    · exact forall_isResourceChar (fun c => isMark c = false) (by decide) (hresource c hin)

end Marks

section Places

variable (port : Nat)

/-- What of a text is its authority. -/
def hostPart (kind : SchemeKind) (cs : List Char) : List Char :=
  (cs.dropWhile kind.isSlash).takeWhile (!kind.isSlash ·)

/-- What of a text is its path. -/
def wayPart (kind : SchemeKind) (cs : List Char) : List Char :=
  (cs.dropWhile kind.isSlash).dropWhile (!kind.isSlash ·)

/-- A URL of the web is read in its parts. -/
theorem parse_web {text scheme : String} {rest : List Char}
    (hscheme : splitScheme? (strip text.toList) = some (scheme, rest))
    (hkind : SchemeKind.ofScheme scheme = .web port) :
    parse text =
      (parseAuthority (.web port) (hostPart (.web port) (splitTail (.web port) rest).1) true).map
        fun (authority, extra) =>
          ⟨scheme, some authority,
            parsePath (.web port) (extra ++ wayPart (.web port) (splitTail (.web port) rest).1),
            (splitTail (.web port) rest).2.1, (splitTail (.web port) rest).2.2⟩ := by
  -- Whatever follows, a host is needed.
  have hfollows : ∀ cs follows, parseAuthority (.web port) cs follows =
      parseAuthority (.web port) cs true := fun cs follows => by
    rw [parseAuthority_eq _ rfl, parseAuthority_eq _ rfl]
  rw [parse, hscheme]
  simp only [hkind, parseHierarchy, parsePlace, hfollows]
  rw [hostPart, wayPart]
  cases parseAuthority (.web port) (((splitTail (.web port) rest).1.dropWhile
    (SchemeKind.web port).isSlash).takeWhile (!(SchemeKind.web port).isSlash ·)) true with
  | error fault => rfl
  | ok place => rfl

/-- What is left of a text begins with what ended it. -/
theorem head?_dropWhile {p : Char → Bool} {cs : List Char} {c : Char}
    (h : c ∈ (cs.dropWhile p).head?) : p c = false := by
  have hhead := List.head?_dropWhile_not p cs
  rw [h] at hhead
  exact hhead

/-- What follows an authority begins with a slash. -/
theorem isSlash_head?_extra {cs extra : List Char} {authority : Authority}
    (h : parseAuthority (.web port) cs true = .ok (authority, extra)) :
    ∀ c ∈ extra.head?, (SchemeKind.web port).isSlash c = true := by
  intro c hc
  rw [parseAuthority_eq _ rfl] at h
  split at h
  · cases h
  · rw [readPlace] at h
    generalize ((splitPort false (splitUser cs).2).2.getD []) = digits at h
    rcases exists_of_bind_eq_ok h with ⟨host, _, hbehind⟩
    rcases exists_of_bind_eq_ok hbehind with ⟨number, _, hplace⟩
    have hextra : digits.drop (digits.takeWhile (· ≠ '\\')).length = extra :=
      (Prod.mk.inj (Except.ok.inj hplace)).2
    have hdrop : digits.drop (digits.takeWhile (· ≠ '\\')).length =
        digits.dropWhile (· ≠ '\\') := by
      conv_lhs =>
        arg 2
        rw [← List.takeWhile_append_dropWhile (p := (· ≠ '\\')) (l := digits)]
      exact List.drop_left
    -- What the port does not take begins with the backslash that has ended it.
    rw [← hextra, hdrop] at hc
    have hback := head?_dropWhile hc
    simp only [decide_eq_false_iff_not, not_not] at hback
    rw [hback]
    rfl

/-- What ends an authority begins with a slash. -/
theorem isSlash_head?_wayPart (cs : List Char) :
    ∀ c ∈ (wayPart (.web port) cs).head?, (SchemeKind.web port).isSlash c = true := by
  intro c hc
  have hends := head?_dropWhile hc
  simpa using hends

theorem isSlash_head?_append {first second : List Char}
    (hfirst : ∀ c ∈ first.head?, (SchemeKind.web port).isSlash c = true)
    (hsecond : ∀ c ∈ second.head?, (SchemeKind.web port).isSlash c = true) :
    ∀ c ∈ (first ++ second).head?, (SchemeKind.web port).isSlash c = true := by
  cases first with
  | nil => exact hsecond
  | cons c rest => exact hfirst

/-- Without a host there is no authority. -/
theorem hostPart_ne_nil {cs : List Char} {place : Authority × List Char}
    (h : parseAuthority (.web port) (hostPart (.web port) cs) true = .ok place) :
    hostPart (.web port) cs ≠ [] := by
  intro hnil
  rw [hnil, parseAuthority_eq _ rfl] at h
  exact nomatch h

/-- The slashes in front of a host do not reach behind it. -/
theorem dropWhile_append_of_host {cs : List Char} (hhost : hostPart (.web port) cs ≠ [])
    (more : List Char) : (cs ++ more).dropWhile (SchemeKind.web port).isSlash =
      cs.dropWhile (SchemeKind.web port).isSlash ++ more := by
  rw [List.dropWhile_append]
  split
  · next hempty =>
    rw [hostPart, List.isEmpty_iff.mp hempty] at hhost
    exact absurd rfl hhost
  · rfl

/-- A slash behind a text with a host is behind its path. -/
theorem parts_append_slash {cs : List Char} (hhost : hostPart (.web port) cs ≠ [])
    (more : List Char) :
    hostPart (.web port) (cs ++ '/' :: more) = hostPart (.web port) cs ∧
      wayPart (.web port) (cs ++ '/' :: more) = wayPart (.web port) cs ++ '/' :: more := by
  have hslash : (SchemeKind.web port).isSlash '/' = true := rfl
  rw [hostPart, wayPart, dropWhile_append_of_host port hhost, hostPart, wayPart]
  -- The slashes in front of the host are dropped by now and play no part.
  generalize cs.dropWhile (SchemeKind.web port).isSlash = place
  constructor
  · rw [List.takeWhile_append]
    split
    · next hlength =>
      rw [List.takeWhile_cons_of_neg (by simp [hslash]), List.append_nil,
        (List.takeWhile_prefix _).eq_of_length hlength]
    · rfl
  · rw [List.dropWhile_append]
    split
    · next hempty =>
      rw [List.dropWhile_cons_of_neg (by simp [hslash]), List.isEmpty_iff.mp hempty]
      rfl
    · rfl

theorem parts_append_slashes {cs : List Char} (hhost : hostPart (.web port) cs ≠ []) (n : Nat) :
    hostPart (.web port) (cs ++ List.replicate n '/') = hostPart (.web port) cs ∧
      wayPart (.web port) (cs ++ List.replicate n '/') =
        wayPart (.web port) cs ++ List.replicate n '/' := by
  cases n with
  | zero => simp only [List.replicate_zero, List.append_nil, and_self]
  | succ n => exact parts_append_slash port hhost _

/-- Slashes behind a text are no host. -/
theorem hostPart_of_append_slashes {cs : List Char} {n : Nat}
    (h : hostPart (.web port) (cs ++ List.replicate n '/') ≠ []) :
    hostPart (.web port) cs ≠ [] := by
  rw [hostPart] at h ⊢
  cases hplace : cs.dropWhile (SchemeKind.web port).isSlash with
  | nil =>
      -- All that is left would be slashes, which are no host.
      have hslashes : (List.replicate n '/').dropWhile (SchemeKind.web port).isSlash = [] :=
        List.dropWhile_eq_nil_iff.mpr fun c hc => by
          rw [List.eq_of_mem_replicate hc]
          rfl
      rw [List.dropWhile_append, hplace, List.isEmpty_nil, if_pos rfl, hslashes] at h
      exact absurd rfl h
  | cons c rest =>
      have hc : (SchemeKind.web port).isSlash c = false :=
        head?_dropWhile (show c ∈ (cs.dropWhile _).head? by rw [hplace]; rfl)
      rw [List.takeWhile_cons_of_pos (by simp [hc])]
      exact List.cons_ne_nil _ _

/-- Blanks behind a text with a host are behind its path, or behind its host if
    there is no path. -/
theorem parts_append_blanks {cs blanks : List Char} (hhost : hostPart (.web port) cs ≠ [])
    (hblanks : ∀ c ∈ blanks, isBlank c = true) :
    (wayPart (.web port) cs = [] ∧
        hostPart (.web port) (cs ++ blanks) = hostPart (.web port) cs ++ blanks) ∨
      (wayPart (.web port) cs ≠ [] ∧
        hostPart (.web port) (cs ++ blanks) = hostPart (.web port) cs ∧
        wayPart (.web port) (cs ++ blanks) = wayPart (.web port) cs ++ blanks) := by
  have hkept : ∀ c ∈ blanks, (!(SchemeKind.web port).isSlash c) = true := fun c hc => by
    rw [isSlash_of_isBlank port (hblanks c hc), Bool.not_false]
  simp only [hostPart, wayPart, dropWhile_append_of_host port hhost]
  generalize cs.dropWhile (SchemeKind.web port).isSlash = place
  -- Without a path the host is open at its end, and blanks become part of it.
  by_cases hway : place.dropWhile (!(SchemeKind.web port).isSlash ·) = []
  · have hall : ∀ c ∈ place, (!(SchemeKind.web port).isSlash c) = true :=
      List.dropWhile_eq_nil_iff.mp hway
    refine .inl ⟨hway, ?_⟩
    rw [List.takeWhile_append_of_pos hall, List.takeWhile_eq_self_iff.mpr hall,
      List.takeWhile_eq_self_iff.mpr hkept]
  · have hends : ∃ c ∈ place, (!(SchemeKind.web port).isSlash c) = false := by
      by_contra hnone
      refine hway (List.dropWhile_eq_nil_iff.mpr fun c hc => ?_)
      by_contra hc'
      exact hnone ⟨c, hc, Bool.eq_false_iff.mpr hc'⟩
    refine .inr ⟨hway, takeWhile_append_of_mem hends blanks, ?_⟩
    rw [List.dropWhile_append, if_neg]
    rw [List.isEmpty_iff]
    exact hway

end Places

section Readings

variable {port : Nat} {text extended scheme : String} {rest : List Char} {base : Url}

theorem splitScheme?_of_parse (hbase : parse text = .ok base) :
    ∃ rest, splitScheme? (strip text.toList) = some (base.scheme, rest) := by
  rw [parse] at hbase
  cases hscheme : splitScheme? (strip text.toList) with
  | none =>
      rw [hscheme] at hbase
      exact nomatch hbase
  | some parts =>
      rcases parts with ⟨scheme, rest⟩
      simp only [hscheme] at hbase
      rcases exists_of_bind_eq_ok hbase with ⟨place, _, hurl⟩
      exact ⟨rest, by rw [← Except.ok.inj hurl]⟩

theorem parse_web_eq_ok (hkind : SchemeKind.ofScheme scheme = .web port)
    (hscheme : splitScheme? (strip text.toList) = some (scheme, rest))
    (hbase : parse text = .ok base) :
    ∃ authority extra,
      parseAuthority (.web port) (hostPart (.web port) (splitTail (.web port) rest).1) true =
        .ok (authority, extra) ∧
      base = ⟨scheme, some authority,
        parsePath (.web port) (extra ++ wayPart (.web port) (splitTail (.web port) rest).1),
        (splitTail (.web port) rest).2.1, (splitTail (.web port) rest).2.2⟩ := by
  rw [parse_web port hscheme hkind] at hbase
  -- The authority is all that can fail, and the other parts are taken as they are.
  cases hauthority : parseAuthority (.web port)
    (hostPart (.web port) (splitTail (.web port) rest).1) true with
  | error fault =>
      rw [hauthority] at hbase
      exact nomatch hbase
  | ok place =>
      rw [hauthority] at hbase
      exact ⟨place.1, place.2, rfl, (Except.ok.inj hbase).symm⟩

/-- **A text with a mark** keeps its path, whatever is behind the mark. -/
theorem parse_marked (hkind : SchemeKind.ofScheme scheme = .web port)
    (hmark : ∃ c ∈ rest, isMark c = true) {more other : List Char}
    (hscheme : splitScheme? (strip text.toList) = some (scheme, rest ++ more))
    (hbase : parse text = .ok base)
    (hextended : splitScheme? (strip extended.toList) = some (scheme, rest ++ other)) :
    ∃ url, parse extended = .ok url ∧ url.path = base.path := by
  rcases parse_web_eq_ok hkind hscheme hbase with ⟨authority, extra, hauthority, hparts⟩
  rw [splitTail_append_of_isMark _ hmark] at hauthority
  rw [parse_web port hextended hkind, splitTail_append_of_isMark _ hmark, hauthority]
  refine ⟨_, rfl, ?_⟩
  rw [hparts, splitTail_append_of_isMark _ hmark]

/-- **A text that ends plain**, up to slashes, keeps its authority, and its path goes
    on with what is behind it. -/
theorem parse_plain (hkind : SchemeKind.ofScheme scheme = .web port)
    (hmarks : ∀ c ∈ rest, isMark c = false) {n : Nat}
    (hscheme : splitScheme? (strip text.toList) = some (scheme, rest ++ List.replicate n '/'))
    (hbase : parse text = .ok base) :
    ∃ authority path, (∀ c ∈ path.head?, (SchemeKind.web port).isSlash c = true) ∧
      base = ⟨scheme, some authority, parsePath (.web port) (path ++ List.replicate n '/'), none,
        none⟩ ∧
      ∀ (extended : String) (resource : List Char), (∀ c ∈ resource, isResourceChar c = true) →
        splitScheme? (strip extended.toList) = some (scheme, rest ++ '/' :: resource) →
        parse extended = .ok ⟨scheme, some authority,
          parsePath (.web port) (path ++ '/' :: resource), none, none⟩ := by
  have hslashes : ∀ c ∈ rest ++ List.replicate n '/', isMark c = false := by
    intro c hc
    rcases List.mem_append.mp hc with hrest | hslash
    · exact hmarks c hrest
    · rw [List.eq_of_mem_replicate hslash]
      decide
  rcases parse_web_eq_ok hkind hscheme hbase with ⟨authority, extra, hauthority, hparts⟩
  rw [splitTail_of_not_isMark _ hslashes] at hauthority hparts
  -- The host is in front of the slashes, where it stays with a resource behind it.
  have hhost : hostPart (.web port) rest ≠ [] :=
    hostPart_of_append_slashes port (hostPart_ne_nil port hauthority)
  rw [(parts_append_slashes port hhost n).1] at hauthority
  rw [(parts_append_slashes port hhost n).2, ← List.append_assoc] at hparts
  refine ⟨authority, extra ++ wayPart (.web port) rest,
    isSlash_head?_append port (isSlash_head?_extra port hauthority)
      (isSlash_head?_wayPart port rest), hparts, ?_⟩
  · intro extended resource hresource hextended
    rw [parse_web port hextended hkind,
      splitTail_of_not_isMark _ (isMark_append_resource hmarks hresource),
      (parts_append_slash port hhost resource).1, (parts_append_slash port hhost resource).2,
      hauthority, List.append_assoc]
    rfl

/-- **A text that ends in blanks** has no URL when something is behind it, or it has
    the blanks in its path. -/
theorem parse_blank (hkind : SchemeKind.ofScheme scheme = .web port)
    (hmarks : ∀ c ∈ rest, isMark c = false) {blanks : List Char} (hnonempty : blanks ≠ [])
    (hblanks : ∀ c ∈ blanks, isBlank c = true)
    (hscheme : splitScheme? (strip text.toList) = some (scheme, rest))
    (hbase : parse text = .ok base) :
    ∃ authority path, (∀ c ∈ path.head?, (SchemeKind.web port).isSlash c = true) ∧
      base = ⟨scheme, some authority, parsePath (.web port) path, none, none⟩ ∧
      ∀ (extended : String) (resource : List Char), (∀ c ∈ resource, isResourceChar c = true) →
        splitScheme? (strip extended.toList) = some (scheme, (rest ++ blanks) ++ '/' :: resource) →
        (∃ fault, parse extended = .error fault) ∨
          (path ≠ [] ∧ parse extended = .ok ⟨scheme, some authority,
            parsePath (.web port) ((path ++ blanks) ++ '/' :: resource), none, none⟩) := by
  rcases parse_web_eq_ok hkind hscheme hbase with ⟨authority, extra, hauthority, hparts⟩
  simp only [splitTail_of_not_isMark _ hmarks] at hauthority hparts
  have hhost := hostPart_ne_nil port hauthority
  have hplain : ∀ c ∈ rest ++ blanks, isMark c = false := by
    intro c hc
    rcases List.mem_append.mp hc with hrest | hblank
    · exact hmarks c hrest
    · exact forall_isBlank (fun c => isMark c = false) (by decide) (hblanks c hblank)
  refine ⟨authority, extra ++ wayPart (.web port) rest,
    isSlash_head?_append port (isSlash_head?_extra port hauthority)
      (isSlash_head?_wayPart port rest), hparts, ?_⟩
  intro extended resource hresource hextended
  rw [parse_web port hextended hkind]
  simp only [splitTail_of_not_isMark _ (isMark_append_resource hplain hresource)]
  rcases parts_append_blanks port hhost hblanks with ⟨_, hmore⟩ | ⟨hway, hsame, hmore⟩
  · -- The blanks are behind the host.
    have hhostMore : hostPart (.web port) (rest ++ blanks) ≠ [] := by
      rw [hmore]
      exact fun h => hhost (List.append_eq_nil_iff.mp h).1
    rcases List.eq_nil_or_concat blanks with hnil | ⟨init, last, hconcat⟩
    · exact absurd hnil hnonempty
    · rw [List.concat_eq_append] at hconcat
      -- No backslash ends the host before them.
      have hback : '\\' ∉ hostPart (.web port) rest ++ init := by
        intro hmem
        rcases List.mem_append.mp hmem with hin | hin
        · have hslash : (SchemeKind.web port).isSlash '\\' = true := rfl
          exact absurd (List.mem_takeWhile_imp hin) (by simp [hslash])
        · have hblank := hblanks '\\' (by rw [hconcat]; exact List.mem_append_left _ hin)
          exact absurd hblank (by decide)
      rcases parseAuthority_concat (.web port) rfl _ hback last
        (hblanks last (by rw [hconcat]; simp)) true with ⟨fault, hfault⟩
      refine .inl ⟨fault, ?_⟩
      rw [(parts_append_slash port hhostMore resource).1, hmore, hconcat,
        ← List.append_assoc (hostPart (.web port) rest), hfault, Except.map]
  · -- The blanks are behind the path, and the host is the same.
    have hhostMore : hostPart (.web port) (rest ++ blanks) ≠ [] := by
      rw [hsame]
      exact hhost
    refine .inr ⟨fun h => hway (List.append_eq_nil_iff.mp h).2, ?_⟩
    rw [(parts_append_slash port hhostMore resource).1, hsame,
      (parts_append_slash port hhostMore resource).2, hmore, hauthority, Except.map]
    simp only [List.append_assoc]

end Readings

end Url

end TestbedReport
