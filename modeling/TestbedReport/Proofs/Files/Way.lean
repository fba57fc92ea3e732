import TestbedReport.Files.Tree

/-!
# Directories on the Way

The steps of a path lead to a place, whatever there is in a tree: up takes the last name
away and down adds one. What the tree decides is whether one gets there. Each step down
must find a directory under its name, so a walk is decided by the places that the steps
down lead to, one after the other (`walk_eq_ok_iff`).

Making the directories of a path may fail between any two of them. Whether it does or
not, it has changed nothing but that some of these places, where nothing was before, now
are directories (`grown_makeAll`). It fails exactly if a file is on the way or a name is
too long (`makeAll_ok_iff`).

## Main definitions

* `FilePath.lead`: Where steps lead.
* `FilePath.way`: The places that the steps down lead to.
* `FileTree.Enterable`, `FileTree.Passable`: A directory, and what can become one.
* `FileTree.Stays`, `FileTree.Grown`: Nothing has changed but that directories were made.

## Theorems

* `FileTree.walk_eq_ok_iff`: When a walk gets to its end.
* `FileTree.grown_makeAll`: What is changed where directories are made.
* `FileTree.makeAll_ok_iff`: When they can be made.
-/

namespace TestbedReport

namespace FilePath

/-- Where steps lead from a place. -/
def lead (here : Location) : List PathStep → Location
  | [] => here
  | .up :: rest => lead here.dropLast rest
  | .down name :: rest => lead (here ++ [name]) rest

/-- The places that the steps down lead to, in order. -/
def way (here : Location) : List PathStep → List Location
  | [] => []
  | .up :: rest => way here.dropLast rest
  | .down name :: rest => (here ++ [name]) :: way (here ++ [name]) rest

theorem lead_append (here : Location) (first second : List PathStep) :
    lead here (first ++ second) = lead (lead here first) second := by
  induction first generalizing here with
  | nil => rfl
  | cons step rest ih =>
      cases step with
      | down name => exact ih (here ++ [name])
      | up => exact ih here.dropLast

theorem way_append (here : Location) (first second : List PathStep) :
    way here (first ++ second) = way here first ++ way (lead here first) second := by
  induction first generalizing here with
  | nil => rfl
  | cons step rest ih =>
      cases step with
      | down name => exact congrArg ((here ++ [name]) :: ·) (ih (here ++ [name]))
      | up => exact ih here.dropLast

/-- The way along some steps is the beginning of the way along more. -/
theorem way_subset (here : Location) (first second : List PathStep) :
    way here first ⊆ way here (first ++ second) := by
  rw [way_append]
  exact List.subset_append_left _ _

/-- A step up leads to no new place. -/
theorem way_append_up (here : Location) (steps : List PathStep) :
    way here (steps ++ [.up]) = way here steps :=
  (way_append here steps [.up]).trans (List.append_nil _)

theorem way_append_down (here : Location) (steps : List PathStep) (name : String) :
    way here (steps ++ [.down name]) = way here steps ++ [lead here steps ++ [name]] :=
  way_append here steps [.down name]

end FilePath

namespace FileTree

open FilePath

variable {t t' t'' : FileTree} {here place : Location} {steps : List PathStep}

/-- Only what is set changes. -/
theorem find?_put_of_ne {other : Location} {node : Node} (h : other ≠ place) :
    (t.put place node).find? other = t.find? other := by
  rw [find?_put, if_neg h]
  by_cases hroot : other = []
  · rw [if_pos hroot, hroot]
    rfl
  · rw [if_neg hroot]

/-- An entry that is set under a name is there. -/
theorem find?_put_append (t : FileTree) (here : Location) (name : String) (node : Node) :
    (t.put (here ++ [name]) node).find? (here ++ [name]) = some node := by
  have hne : here ++ [name] ≠ [] := List.append_ne_nil_of_right_ne_nil _ (List.cons_ne_nil _ _)
  rw [find?_put, if_neg hne, if_pos rfl]

/-- Whether the last name of a place is one that can be looked up. -/
def Named (place : Location) : Prop :=
  (place.getLastD "").utf8ByteSize ≤ maxNameSize

/-- Whether a step down to a place gets on. -/
def Enterable (t : FileTree) (place : Location) : Prop :=
  Named place ∧ t.find? place = some .directory

/-- Whether a place is a directory or can be made one. -/
def Passable (t : FileTree) (place : Location) : Prop :=
  Named place ∧ ∀ content, t.find? place ≠ some (.file content)

theorem named_append (here : Location) (name : String) :
    Named (here ++ [name]) ↔ name.utf8ByteSize ≤ maxNameSize := by
  rw [Named, List.getLastD_concat]

theorem Enterable.passable (h : t.Enterable place) : t.Passable place :=
  ⟨h.1, fun _ hfile => nomatch h.2.symm.trans hfile⟩

/-- A name that is not too long is looked up. -/
theorem child_of_named {name : String} (h : Named (here ++ [name])) :
    t.child here name = .ok (t.find? (here ++ [name])) :=
  if_neg (Nat.not_lt.mpr ((named_append here name).mp h))

/-- A name that is too long is not. -/
theorem child_of_not_named {name : String} (h : ¬Named (here ++ [name])) :
    t.child here name = .error .nameTooLong :=
  if_pos (Nat.lt_of_not_le fun hle => h ((named_append here name).mpr hle))

/-- A walk gets to its end if each of its steps down leads to a directory. -/
theorem walk_eq_ok_iff :
    t.walk here steps = .ok place ↔
      (∀ p ∈ way here steps, t.Enterable p) ∧ lead here steps = place := by
  -- Each step starts from another place, so the place is left open.
  induction steps generalizing here with
  | nil =>
      simp only [walk, way, lead, Except.ok.injEq, List.not_mem_nil, false_implies,
        implies_true, true_and]
  | cons step rest ih =>
      cases step with
      | up => exact ih
      | down name =>
          simp only [way, lead, List.forall_mem_cons, and_assoc, ← ih, walk]
          by_cases hname : Named (here ++ [name])
          · rw [child_of_named hname]
            rcases hfind : t.find? (here ++ [name]) with _ | content | _ <;>
              simp [Enterable, hname, hfind]
          · rw [child_of_not_named hname]
            simp [Enterable, hname]

/-- A walk gets to its end, somewhere or other. -/
theorem walk_of_enterable (h : ∀ p ∈ way here steps, t.Enterable p) :
    t.walk here steps = .ok (lead here steps) :=
  walk_eq_ok_iff.mpr ⟨h, rfl⟩

/-- If no file is on the way, a walk can only miss what is not there. -/
theorem walk_of_passable (h : ∀ p ∈ way here steps, t.Passable p) :
    t.walk here steps = .error .notFound ∨ ∀ p ∈ way here steps, t.Enterable p := by
  induction steps generalizing here with
  | nil => exact .inr fun p hp => nomatch hp
  | cons step rest ih =>
      cases step with
      | up => exact ih h
      | down name =>
          rw [way, List.forall_mem_cons] at h
          rcases h with ⟨⟨hname, hfile⟩, hrest⟩
          rw [walk, child_of_named hname]
          -- Nothing there ends the walk, a file is excluded, and a directory is walked on.
          rcases hfind : t.find? (here ++ [name]) with _ | content | _
          · exact .inl rfl
          · exact absurd hfind (hfile content)
          · refine (ih hrest).imp_right fun hall => ?_
            exact List.forall_mem_cons.mpr ⟨⟨hname, hfind⟩, hall⟩

/-- Whether a place has the entry it had, or had none and now is one of the directories
    that were made. -/
def Stays (made : List Location) (t t' : FileTree) (place : Location) : Prop :=
  t'.find? place = t.find? place ∨
    t.find? place = none ∧ t'.find? place = some .directory ∧ place ∈ made

/-- Nothing has changed but that some of the places, where nothing was, now are
    directories. -/
def Grown (made : List Location) (t t' : FileTree) : Prop :=
  ∀ place, Stays made t t' place

namespace Stays

variable {made more : List Location}

theorem mono (h : Stays made t t' place) (hsub : made ⊆ more) : Stays more t t' place :=
  h.imp_right fun ⟨hnone, hdirectory, hmem⟩ => ⟨hnone, hdirectory, hsub hmem⟩

theorem trans (h : Stays made t t' place) (h' : Stays made t' t'' place) :
    Stays made t t'' place := by
  rcases h with heq | ⟨hnone, hdirectory, hmem⟩
  · rcases h' with heq' | ⟨hnone', hrest⟩
    · exact .inl (heq'.trans heq)
    · exact .inr ⟨heq.symm.trans hnone', hrest⟩
  · rcases h' with heq' | ⟨hnone', -⟩
    · exact .inr ⟨hnone, heq'.trans hdirectory, hmem⟩
    · exact nomatch hnone'.symm.trans hdirectory

/-- What is there stays there. -/
theorem find?_eq_some {node : Node} (h : Stays made t t' place)
    (hnode : t.find? place = some node) : t'.find? place = some node := by
  rcases h with heq | ⟨hnone, -⟩
  · exact heq.trans hnode
  · exact nomatch hnone.symm.trans hnode

/-- Files are those that were there. -/
theorem find?_file_iff (h : Stays made t t' place) (content : List UInt8) :
    t'.find? place = some (.file content) ↔ t.find? place = some (.file content) := by
  refine ⟨fun hfile => ?_, h.find?_eq_some⟩
  rcases h with heq | ⟨-, hdirectory, -⟩
  · exact heq.symm.trans hfile
  · exact nomatch hdirectory.symm.trans hfile

/-- A file that is set is elsewhere. -/
theorem put_of_ne {other : Location} {node : Node} (h : Stays made t t' other)
    (hne : other ≠ place) : Stays made t (t'.put place node) other := by
  rw [Stays, find?_put_of_ne hne]
  exact h

end Stays

namespace Grown

variable {made more : List Location}

theorem refl (made : List Location) (t : FileTree) : Grown made t t :=
  fun _ => .inl rfl

theorem mono (h : Grown made t t') (hsub : made ⊆ more) : Grown more t t' :=
  fun place => (h place).mono hsub

theorem trans (h : Grown made t t') (h' : Grown made t' t'') : Grown made t t'' :=
  fun place => (h place).trans (h' place)

theorem enterable (h : Grown made t t') (hplace : t.Enterable place) : t'.Enterable place :=
  ⟨hplace.1, (h place).find?_eq_some hplace.2⟩

theorem passable_iff (h : Grown made t t') (place : Location) :
    t'.Passable place ↔ t.Passable place := by
  simp only [Passable, ne_eq, (h place).find?_file_iff]

/-- A directory that is made where nothing was. -/
theorem put_directory (hnone : t.find? place = none) (hmem : place ∈ made) :
    Grown made t (t.put place .directory) := by
  intro other
  by_cases h : other = place
  · subst h
    refine .inr ⟨hnone, ?_, hmem⟩
    rw [find?_put, if_pos rfl, ite_self]
  · exact .inl (find?_put_of_ne h)

end Grown

section Making

variable {before reversed : List PathStep} {last : PathStep} {fault : FileFault}

/-- Where the directories around it are there, the one above a directory is not made. -/
theorem makeDirectory_up (h : ∀ p ∈ way here before, t.Enterable p) :
    t.makeDirectory here before .up = .error .exists := by
  rw [makeDirectory, walk_of_enterable h]
  rfl

/-- And one with a name is, if nothing has the name. -/
theorem makeDirectory_down {name : String} (h : ∀ p ∈ way here before, t.Enterable p)
    (hname : Named (lead here before ++ [name])) :
    t.makeDirectory here before (.down name) =
      (t.find? (lead here before ++ [name])).elim
        (.ok (t.put (lead here before ++ [name]) .directory)) fun _ => .error .exists := by
  rw [makeDirectory, walk_of_enterable h]
  simp only [bind, Except.bind, child_of_named hname]
  cases t.find? (lead here before ++ [name]) <;> rfl

/-- A directory that was made has a name that nothing had, below directories. -/
theorem of_makeDirectory (h : t.makeDirectory here before last = .ok t') :
    (∀ p ∈ way here before, t.Enterable p) ∧ ∃ name, last = .down name ∧
      Named (lead here before ++ [name]) ∧ t.find? (lead here before ++ [name]) = none ∧
      t' = t.put (lead here before ++ [name]) .directory := by
  rcases hwalk : t.walk here before with fault | parent
  · rw [makeDirectory, hwalk] at h
    exact nomatch h
  · rcases walk_eq_ok_iff.mp hwalk with ⟨hbefore, rfl⟩
    refine ⟨hbefore, ?_⟩
    -- A step up names no directory that could be made.
    cases last with
    | up =>
        rw [makeDirectory_up hbefore] at h
        exact nomatch h
    | down name =>
        by_cases hname : Named (lead here before ++ [name])
        · rw [makeDirectory_down hbefore hname] at h
          rcases hfind : t.find? (lead here before ++ [name]) with _ | node
          · rw [hfind] at h
            exact ⟨name, rfl, hname, hfind, (Except.ok.inj h).symm⟩
          · rw [hfind] at h
            exact nomatch h
        · rw [makeDirectory, hwalk] at h
          simp only [bind, Except.bind, child_of_not_named hname] at h
          exact nomatch h

theorem grown_makeDirectory (h : t.makeDirectory here before last = .ok t') :
    Grown (way here (before ++ [last])) t t' := by
  rcases of_makeDirectory h with ⟨-, name, rfl, -, hnone, rfl⟩
  refine Grown.put_directory hnone ?_
  rw [way_append_down]
  exact List.mem_append_right _ (List.mem_singleton_self _)

/-- Behind it the way to the directory that was made is one of directories. -/
theorem enterable_of_makeDirectory (h : t.makeDirectory here before last = .ok t') :
    ∀ p ∈ way here (before ++ [last]), t'.Enterable p := by
  have hgrown := grown_makeDirectory h
  rcases of_makeDirectory h with ⟨hbefore, name, rfl, hname, hnone, rfl⟩
  intro p hp
  rw [way_append_down, List.mem_append, List.mem_singleton] at hp
  rcases hp with hp | rfl
  · exact hgrown.enterable (hbefore p hp)
  · exact ⟨hname, find?_put_append t _ name .directory⟩

/-- Where no file is on the way, a directory is not made because one around it is
    missing, or because it is there. -/
theorem makeDirectory_error (h : t.makeDirectory here before last = .error fault)
    (hpass : ∀ p ∈ way here (before ++ [last]), t.Passable p) :
    (fault = .notFound ∧ ¬∀ p ∈ way here before, t.Enterable p) ∨
      ∀ p ∈ way here (before ++ [last]), t.Enterable p := by
  rw [way_append, List.forall_mem_append] at hpass
  by_cases hbefore : ∀ p ∈ way here before, t.Enterable p
  · refine .inr ?_
    cases last with
    | up => rwa [way_append_up]
    | down name =>
        rcases hpass.2 _ (List.mem_singleton_self _) with ⟨hname, hfile⟩
        rw [makeDirectory_down hbefore hname] at h
        rw [way_append_down, List.forall_mem_append]
        refine ⟨hbefore, List.forall_mem_singleton.mpr ⟨hname, ?_⟩⟩
        rcases hfind : t.find? (lead here before ++ [name]) with _ | content | _
        · -- A directory is made where there is nothing, against the failure.
          rw [hfind] at h
          exact nomatch h
        · exact absurd hfind (hfile content)
        · rfl
  · refine .inl ⟨?_, hbefore⟩
    rw [makeDirectory, (walk_of_passable hpass.1).resolve_right hbefore] at h
    exact (Except.error.inj h).symm

/-- What was not made is no failure if it is there. -/
theorem tolerate_eq_ok_iff :
    t.tolerate here steps fault = .ok () ↔ ∀ p ∈ way here steps, t.Enterable p := by
  rw [tolerate]
  rcases hwalk : t.walk here steps with error | place
  · refine iff_of_false (fun h => nomatch h) fun h => ?_
    exact nomatch hwalk.symm.trans (walk_of_enterable h)
  · exact iff_of_true rfl (walk_eq_ok_iff.mp hwalk).1

/-- Making directories changes nothing but that some places of the way, where nothing
    was, now are directories, and this also where it fails. -/
theorem grown_makeAll (here : Location) (reversed : List PathStep) (t : FileTree) :
    Grown (way here reversed.reverse) t (makeAll here reversed t).2 := by
  -- The cases are those of the attempts: the directory is made at once, or it is made or
  -- not behind the one around it, or it fails for a reason that no other directory mends.
  fun_induction makeAll here reversed t with
  | case1 t => exact Grown.refl _ _
  | case2 last before t t' hmade =>
      rw [List.reverse_cons]
      exact grown_makeDirectory hmade
  | case3 last before t _ fault t' hall ih =>
      rw [hall] at ih
      rw [List.reverse_cons]
      exact ih.mono (way_subset _ _ _)
  | case4 last before t _ t' hall t'' hmade ih =>
      rw [hall] at ih
      rw [List.reverse_cons]
      exact (ih.mono (way_subset _ _ _)).trans (grown_makeDirectory hmade)
  | case5 last before t _ t' hall fault _ ih =>
      rw [hall] at ih
      rw [List.reverse_cons]
      exact ih.mono (way_subset _ _ _)
  | case6 last before t fault _ _ => exact Grown.refl _ _

/-- Where making directories succeeds, the way is one of directories. -/
theorem enterable_of_makeAll (h : (makeAll here reversed t).1 = .ok ()) :
    ∀ p ∈ way here reversed.reverse, (makeAll here reversed t).2.Enterable p := by
  fun_induction makeAll here reversed t with
  | case1 t => exact fun p hp => nomatch hp
  -- The last directory is made at once, made behind the others, or was there.
  | case2 last before t t' hmade =>
      rw [List.reverse_cons]
      exact enterable_of_makeDirectory hmade
  | case3 => exact nomatch h
  | case4 last before t _ t' _ t'' hmade _ =>
      rw [List.reverse_cons]
      exact enterable_of_makeDirectory hmade
  | case5 last before t _ t' _ fault _ _ =>
      rw [List.reverse_cons]
      exact tolerate_eq_ok_iff.mp h
  | case6 last before t fault _ _ =>
      rw [List.reverse_cons]
      exact tolerate_eq_ok_iff.mp h

/-- Directories can be made where no file is on the way and no name is too long. -/
theorem makeAll_of_passable (h : ∀ p ∈ way here reversed.reverse, t.Passable p) :
    (makeAll here reversed t).1 = .ok () := by
  fun_induction makeAll here reversed t with
  | case1 t => rfl
  | case2 last before t t' hmade => rfl
  | case3 last before t _ fault t' hall ih =>
      rw [List.reverse_cons] at h
      have hok := ih fun p hp => h p (way_subset _ _ _ hp)
      rw [hall] at hok
      exact hok
  | case4 last before t _ t' _ t'' _ _ => rfl
  | case5 last before t _ t' hall fault herror ih =>
      -- What is around it is there now, so it can only be that it is there itself.
      have hgrown := grown_makeAll here before t
      have hbefore := enterable_of_makeAll (congrArg Prod.fst hall)
      rw [hall] at hgrown hbefore
      rw [List.reverse_cons] at h
      have hthere := makeDirectory_error herror fun p hp => (hgrown.passable_iff p).mpr (h p hp)
      exact tolerate_eq_ok_iff.mpr (hthere.resolve_left fun hmissing => hmissing.2 hbefore)
  | case6 last before t fault hfault herror =>
      rw [List.reverse_cons] at h
      have hthere := makeDirectory_error herror h
      exact tolerate_eq_ok_iff.mpr (hthere.resolve_left fun hmissing => hfault hmissing.1)

/-- **Directories can be made exactly where no file is on the way and no name is too
    long.** -/
theorem makeAll_ok_iff :
    (makeAll here reversed t).1 = .ok () ↔ ∀ p ∈ way here reversed.reverse, t.Passable p := by
  refine ⟨fun h p hp => ?_, makeAll_of_passable⟩
  exact ((grown_makeAll here reversed t).passable_iff p).mp (enterable_of_makeAll h p hp).passable

end Making

end FileTree

end TestbedReport
