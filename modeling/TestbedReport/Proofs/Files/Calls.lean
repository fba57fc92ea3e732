import TestbedReport.Proofs.Files.Stored

/-!
# Calls to Store Bytes

Any number of calls, with any paths, are made one after the other on a tree. Two paths
can be written differently and lead to the same place, a path from the root leaves the
base, and a call that fails can leave directories behind. None of this matters to what
a file holds: it is changed by the calls that succeed at its place and by no others, in
their order.

The rest of the tree only grows. What is there stays there, and what is new, and no file
that was stored, is a directory on the way of some call. Both are read off what a single
call does to a single place (`outcome_cases`), by induction on the calls.

## Main definitions

* `StorageCall`: One call.
* `StorageCall.run`: The tree behind calls.
* `StorageCall.storedAt`: The calls that have stored a file at a place.
* `StorageCall.Effect`: What a call does to a tree.

## Theorems

* `StorageCall.effect_outcome`: Every call has this effect.
* `StorageCall.find?_run_of_stored`: What a file holds that calls have stored.
* `StorageCall.stays_run`: What becomes of any other place.
* `StorageCall.effects_of_run`: All of it, for a sequence of calls.
-/

namespace TestbedReport

open FileTree

/-- A call to store bytes under a path. -/
structure StorageCall where
  path : String
  mode : WriteMode
  bytes : List UInt8
deriving DecidableEq

/-- The content of the file at a place, and nothing where none is. -/
def FileTree.content (t : FileTree) (place : Location) : List UInt8 :=
  match t.find? place with
  | some (.file bytes) => bytes
  | _ => []

theorem FileTree.content_of_file {t : FileTree} {place : Location} {held : List UInt8}
    (h : t.find? place = some (.file held)) : t.content place = held := by
  rw [content, h]

theorem FileTree.Stays.content_eq {made : List Location} {t t' : FileTree} {place : Location}
    (h : Stays made t t' place) : t'.content place = t.content place := by
  rcases h with heq | ⟨hnone, hdirectory, -⟩
  · rw [content, content, heq]
  · rw [content, content, hnone, hdirectory]

namespace StorageCall

variable (base : String) (here : Location)

/-- The path of a call below a base. -/
def text (c : StorageCall) : String :=
  FilePath.join base c.path

/-- The place that the path of a call leads to. -/
def place (c : StorageCall) : Location :=
  FilePath.place here (c.text base)

/-- The places of the directories around it that the path leads through. -/
def around (c : StorageCall) : List Location :=
  FilePath.around here (c.text base)

/-- What a file holds behind a call, given what it held. -/
def heldBehind (held : List UInt8) (c : StorageCall) : List UInt8 :=
  match c.mode with
  | .truncate => c.bytes
  | .append => held ++ c.bytes

/-- The outcome of a call, and the tree behind it. -/
def outcome (c : StorageCall) (t : FileTree) : Except FileFault Unit × FileTree :=
  t.store here (c.text base) c.mode c.bytes

/-- The tree behind calls. -/
def run (t : FileTree) (calls : List StorageCall) : FileTree :=
  calls.foldl (fun t c => (c.outcome base here t).2) t

/-- The calls that succeed, in order. -/
def done (t : FileTree) : List StorageCall → List StorageCall
  | [] => []
  | c :: rest =>
    match (c.outcome base here t).1 with
    | .ok () => c :: done (c.outcome base here t).2 rest
    | .error _ => done (c.outcome base here t).2 rest

/-- Those of them that store a file at a place. -/
def storedAt (place : Location) (t : FileTree) (calls : List StorageCall) : List StorageCall :=
  (done base here t calls).filter fun c => c.place base here = place

/-- What a call does to a tree. It succeeds exactly where bytes can be stored. If it does,
    a file at its place holds the bytes, behind what it held or instead of it, and is read
    under its path. Every other place, and if it fails every place, has the entry it had, or
    had none and is a directory on the way. -/
structure Effect (c : StorageCall) (t : FileTree) (result : Except FileFault Unit)
    (t' : FileTree) : Prop where
  ok_iff : result = .ok () ↔ t.Storable here (c.text base)
  stored : result = .ok () →
    t'.find? (c.place base here) = some (.file (c.heldBehind (t.content (c.place base here))))
  read : result = .ok () →
    t'.read here (c.text base) = .ok (c.heldBehind (t.content (c.place base here)))
  others : ∀ other, (result = .ok () → other ≠ c.place base here) →
    Stays (c.around base here) t t' other

variable {base here} {t : FileTree}

theorem run_cons (t : FileTree) (c : StorageCall) (rest : List StorageCall) :
    run base here t (c :: rest) = run base here (c.outcome base here t).2 rest := by
  rw [run, List.foldl_cons, run]

theorem run_concat (t : FileTree) (before : List StorageCall) (c : StorageCall) :
    run base here t (before ++ [c]) = (c.outcome base here (run base here t before)).2 := by
  rw [run, List.foldl_append, List.foldl_cons, List.foldl_nil, run]

/-- What a file holds behind a call is what was kept of it and the bytes. -/
theorem heldBehind_content (c : StorageCall) (t : FileTree) (place : Location) :
    c.heldBehind (t.content place) = t.contentBefore c.mode place ++ c.bytes := by
  cases hmode : c.mode with
  | truncate => simp only [heldBehind, hmode, contentBefore, List.nil_append]
  | append =>
      simp only [heldBehind, hmode, content, contentBefore]
      rcases t.find? place with _ | content | _ <;> rfl

/-- A call has its effect, whatever its path and whatever the tree. -/
theorem effect_outcome (c : StorageCall) (t : FileTree) :
    c.Effect base here t (c.outcome base here t).1 (c.outcome base here t).2 := by
  have hgrown := grown_made t here (c.text base)
  have hiff : (t.store here (c.text base) c.mode c.bytes).1 = .ok () ↔
      t.Storable here (c.text base) := store_ok_iff
  rw [outcome]
  rcases store_cases t here (c.text base) c.mode c.bytes with
    ⟨-, ⟨fault, hfault⟩, hfailed⟩ | ⟨h, hall, hok⟩
  · rw [hfault] at hiff ⊢
    refine {
      ok_iff := hiff
      stored := fun hok => nomatch hok
      read := fun hok => nomatch hok
      others := fun other _ => ?_ }
    -- The file was not opened, so the directories are all that can be new.
    rcases hfailed with hsame | hmade
    · exact .inl (congrArg (find? · other) hsame)
    · rw [hmade]
      exact hgrown other
  · rw [hok] at hiff ⊢
    rw [← heldBehind_content]
    have hfile := h.find?_put (t.made here (c.text base))
      (.file (c.heldBehind (t.content (c.place base here))))
    refine {
      ok_iff := hiff
      stored := fun _ => hfile
      read := fun _ => read_of_enterable h (fun p hp => ?_) hfile
      others := fun other hother => (hgrown other).put_of_ne (hother rfl) }
    -- The file is not on the way to itself.
    have hne : p ≠ c.place base here := by
      rintro rfl
      exact h.not_passed hp
    exact ⟨(hall p hp).1, (find?_put_of_ne hne).trans (hall p hp).2⟩

/-- To a place a call does one of two things. It stores a file there, or it leaves the
    place as it was or a new directory. Only in the first case is it one of those that have
    stored a file. -/
theorem outcome_cases (base : String) (here place : Location) (t : FileTree) (c : StorageCall) :
    ((∀ rest, storedAt base here place t (c :: rest) =
          c :: storedAt base here place (c.outcome base here t).2 rest) ∧
        t.find? place ≠ some .directory ∧
        (c.outcome base here t).2.find? place = some (.file (c.heldBehind (t.content place)))) ∨
      (∀ rest, storedAt base here place t (c :: rest) =
          storedAt base here place (c.outcome base here t).2 rest) ∧
        Stays (c.around base here) t (c.outcome base here t).2 place := by
  have heffect : c.Effect base here t (c.outcome base here t).1 (c.outcome base here t).2 :=
    effect_outcome c t
  by_cases hstored : (c.outcome base here t).1 = .ok () ∧ c.place base here = place
  · rcases hstored with ⟨hok, rfl⟩
    refine .inl ⟨fun rest => ?_, (heffect.ok_iff.mp hok).no_directory, heffect.stored hok⟩
    rw [storedAt, done, hok]
    exact List.filter_cons_of_pos (decide_eq_true rfl)
  · -- The call has failed, or its file is somewhere else.
    refine .inr ⟨fun rest => ?_, heffect.others place fun hok hplace => ?_⟩
    · rw [storedAt, done]
      rcases hresult : (c.outcome base here t).1 with fault | _
      · rfl
      · exact List.filter_cons_of_neg fun hplace => hstored ⟨hresult, of_decide_eq_true hplace⟩
    · exact hstored ⟨hok, hplace.symm⟩

section Run

variable {place : Location} {held : List UInt8}

/-- What a file holds behind calls is decided by those that store it. -/
theorem find?_run_of_file (calls : List StorageCall) (h : t.find? place = some (.file held)) :
    (run base here t calls).find? place =
      some (.file ((storedAt base here place t calls).foldl heldBehind held)) := by
  induction calls generalizing t held with
  | nil => exact h
  | cons c rest ih =>
      rw [run_cons]
      rcases outcome_cases base here place t c with ⟨hcons, -, hfile⟩ | ⟨hcons, hstays⟩
      · -- A call that stores the file goes on from what it held.
        rw [content_of_file h] at hfile
        rw [hcons, List.foldl_cons]
        exact ih hfile
      · rw [hcons]
        exact ih (hstays.find?_eq_some h)

/-- A directory is one behind calls. -/
theorem find?_run_of_directory (calls : List StorageCall)
    (h : t.find? place = some .directory) :
    (run base here t calls).find? place = some .directory := by
  induction calls generalizing t with
  | nil => exact h
  | cons c rest ih =>
      rw [run_cons]
      rcases outcome_cases base here place t c with ⟨-, hfree, -⟩ | ⟨-, hstays⟩
      · exact absurd h hfree
      · exact ih (hstays.find?_eq_some h)

/-- A place where calls store a file has a file behind them. It holds what these calls, in
    their order, make of what was there. -/
theorem find?_run_of_stored (calls : List StorageCall)
    (h : storedAt base here place t calls ≠ []) :
    (run base here t calls).find? place =
      some (.file ((storedAt base here place t calls).foldl heldBehind (t.content place))) := by
  induction calls generalizing t with
  | nil => exact absurd rfl h
  | cons c rest ih =>
      rw [run_cons]
      rcases outcome_cases base here place t c with ⟨hcons, -, hfile⟩ | ⟨hcons, hstays⟩
      · -- From the first of them on there is a file.
        rw [hcons, List.foldl_cons]
        exact find?_run_of_file rest hfile
      · -- Before it the content stays, for a new directory has as little as nothing had.
        rw [hcons] at h ⊢
        rw [← hstays.content_eq]
        exact ih h

/-- A place where no call stores a file stays as it is, or is a new directory on the way
    of one of the calls. -/
theorem stays_run (calls : List StorageCall) (h : storedAt base here place t calls = []) :
    Stays (calls.flatMap fun c => c.around base here) t (run base here t calls) place := by
  induction calls generalizing t with
  | nil => exact .inl rfl
  | cons c rest ih =>
      rw [run_cons, List.flatMap_cons]
      rcases outcome_cases base here place t c with ⟨hcons, -⟩ | ⟨hcons, hstays⟩
      · -- The call would be one of those that have stored a file there.
        exact nomatch (hcons rest).symm.trans h
      · rw [hcons] at h
        exact (hstays.mono (List.subset_append_left _ _)).trans
          ((ih h).mono (List.subset_append_right _ _))

end Run

/-- **Storage calls affect the files they are made for and no others.** Each has its
    effect on the tree behind those before it. Behind all of them a directory is still one.
    A file that was stored holds what the calls that stored it make, in their order, of what
    was there. Any other place has the entry it had, or had none and is a directory on the
    way of a call. -/
theorem effects_of_run (base : String) (here : Location) (t : FileTree)
    (calls : List StorageCall) :
    (∀ before c after, calls = before ++ c :: after →
      c.Effect base here (run base here t before) (c.outcome base here (run base here t before)).1
        (run base here t (before ++ [c]))) ∧
    ∀ place,
      (t.find? place = some .directory →
        (run base here t calls).find? place = some .directory) ∧
      (storedAt base here place t calls ≠ [] → (run base here t calls).find? place =
        some (.file ((storedAt base here place t calls).foldl heldBehind (t.content place)))) ∧
      (storedAt base here place t calls = [] →
        Stays (calls.flatMap fun c => c.around base here) t (run base here t calls) place) := by
  refine ⟨fun before c after _ => ?_, fun place => ⟨find?_run_of_directory calls,
    find?_run_of_stored calls, stays_run calls⟩⟩
  rw [run_concat]
  exact effect_outcome c _

/-- Two paths of one file, and a call that fails because it is a file and no directory.
    The way of the second path is left behind. -/
theorem effects_of_run_two_paths :
    let calls : List StorageCall :=
      [⟨"a", .truncate, [1]⟩, ⟨"x/../a", .append, [2]⟩, ⟨"a/y/z", .truncate, [3]⟩]
    storedAt "b" [] ["b", "a"] FileTree.empty calls =
        [⟨"a", .truncate, [1]⟩, ⟨"x/../a", .append, [2]⟩] ∧
      (run "b" [] FileTree.empty calls).find? ["b", "a"] = some (.file [1, 2]) ∧
      run "b" [] FileTree.empty calls =
        ⟨[(["b"], .directory), (["b", "a"], .file [1, 2]), (["b", "x"], .directory)]⟩ := by
  intro calls
  have hstored : storedAt "b" [] ["b", "a"] FileTree.empty calls =
      [⟨"a", .truncate, [1]⟩, ⟨"x/../a", .append, [2]⟩] := by decide
  have hheld := ((effects_of_run "b" [] FileTree.empty calls).2 ["b", "a"]).2.1
  rw [hstored] at hheld
  exact ⟨hstored, hheld (List.cons_ne_nil _ _), by decide⟩

end StorageCall

end TestbedReport
