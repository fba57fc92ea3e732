import TestbedReport.Proofs.Url.Host
import TestbedReport.Settings.Check

/-!
# What the Checks Accept

A check finds a reason to refuse a value, or none. For each of them it is said here
without the check what it accepts, and which reason goes with which value.

Checks stand one behind the other, and the first that refuses decides how the row
of them fails. `FirstOf` is that as a relation: a list of conditions, each given by
the failures that it is violated with, and a failure with which the first of them
is violated that is violated at all. A row of checks is followed condition by
condition (`bind_eq_error_iff`), where each check only has to be known by itself.

## Main definitions

* `Check.Reachable`: The URLs of servers of the web.
* `Check.UrlFlaw`, `Check.PathFlaw`: What can be wrong with a URL and a path.
* `Check.FirstOf`: A failure with which the first violated condition is violated.

## Theorems

* `Check.bind_eq_error_iff`, `Check.bind_eq_ok_iff`: How a row of checks ends.
* `Check.url_eq_ok_iff`, `Check.url_eq_error_iff`: What is accepted as a base URL.
* `Check.notBlank_eq_ok_iff`, `Check.notBlank_eq_error_iff`: What is accepted as a text.
* `Check.path_eq_ok_iff`, `Check.path_eq_error_iff`: What is accepted as a path.
* `Check.atLeast_eq_ok_iff`, `Check.atLeast_eq_error_iff`: What is accepted as a number.
-/

namespace TestbedReport

namespace Check

/-- A URL of a server that is reached by the web. -/
def Reachable (text : String) : Prop :=
  ∃ url, Url.parse text = .ok url ∧ (url.scheme = "http" ∨ url.scheme = "https")

/-- What can be wrong with a URL, and how it is said. -/
inductive UrlFlaw : String → String → Prop where
  | empty : UrlFlaw "" "URL cannot be empty"
  | malformed {text : String} {fault : UrlFault} (hsome : text ≠ "")
      (hparse : Url.parse text = .error fault) :
      UrlFlaw text ("Invalid URL format: " ++ fault.message)
  | scheme {text : String} {url : Url} (hparse : Url.parse text = .ok url)
      (hhttp : url.scheme ≠ "http") (hhttps : url.scheme ≠ "https") :
      UrlFlaw text ("Unsupported URL scheme: " ++ url.scheme)

/-- What can be wrong with a path, and how it is said. -/
inductive PathFlaw : String → String → Prop where
  | empty : PathFlaw "" "Path cannot be empty"
  | nul {path : String} (h : '\x00' ∈ path.toList) : PathFlaw path "Path contains null bytes"

/-- A failure with which the first condition of a list is violated that is violated at
    all. A condition is given by the failures that it is violated with. -/
inductive FirstOf {ε : Type} : List (ε → Prop) → ε → Prop where
  | here {violated : ε → Prop} {rest : List (ε → Prop)} {cause : ε} (h : violated cause) :
      FirstOf (violated :: rest) cause
  | later {satisfied : ε → Prop} {rest : List (ε → Prop)} {cause : ε}
      (h : ∀ other, ¬satisfied other) (tail : FirstOf rest cause) :
      FirstOf (satisfied :: rest) cause

section Rows

variable {ε α β : Type}

/-- The last condition of a row decides alone. -/
theorem firstOf_singleton (violated : ε → Prop) (cause : ε) :
    FirstOf [violated] cause ↔ violated cause := by
  constructor
  · intro h
    cases h with
    | here h => exact h
    | later _ tail => cases tail
  · exact FirstOf.here

/-- A check with others behind it fails if its condition is violated, and if it is not,
    as the others do. -/
theorem bind_eq_error_iff {x : Except ε α} {next : α → Except ε β} {violated : ε → Prop}
    {rest : List (ε → Prop)} (hx : ∀ cause, x = .error cause ↔ violated cause)
    (hnext : ∀ value, x = .ok value → ∀ cause, next value = .error cause ↔ FirstOf rest cause)
    (cause : ε) : x >>= next = .error cause ↔ FirstOf (violated :: rest) cause := by
  -- The check that comes first decides, unless it has nothing to say.
  cases x with
  | error first =>
      have hbind : (.error first : Except ε α) >>= next = .error first := rfl
      rw [hbind]
      simp only [Except.error.injEq] at hx ⊢
      constructor
      · intro h
        exact FirstOf.here ((hx cause).mp h)
      · intro h
        cases h with
        | here h => exact (hx cause).mpr h
        | later h _ => exact absurd ((hx first).mp rfl) (h first)
  | ok value =>
      have hsatisfied : ∀ other, ¬violated other := fun other h => nomatch (hx other).mpr h
      constructor
      · intro h
        exact FirstOf.later hsatisfied ((hnext value rfl cause).mp h)
      · intro h
        cases h with
        | here h => exact absurd h (hsatisfied cause)
        | later _ tail => exact (hnext value rfl cause).mpr tail

/-- What is returned behind a row of checks makes no difference to its failures. -/
theorem bind_pure_eq_error_iff (x : Except ε α) (value : β) (cause : ε) :
    (x >>= fun _ => pure value) = .error cause ↔ x = .error cause := by
  cases x with
  | error first =>
      have hbind : ((.error first : Except ε α) >>= fun _ => pure value) = .error first := rfl
      rw [hbind, Except.error.injEq, Except.error.injEq]
  | ok _ => exact iff_of_false nofun nofun

/-- A check with others behind it accepts what all of them accept. -/
theorem bind_eq_ok_iff {x : Except ε Unit} {next : Except ε α} {result : α} :
    (x >>= fun _ => next) = .ok result ↔ x = .ok () ∧ next = .ok result := by
  constructor
  · intro h
    rcases exists_of_bind_eq_ok h with ⟨_, hx, hnext⟩
    exact ⟨hx, hnext⟩
  · rintro ⟨hx, hnext⟩
    rw [hx]
    exact hnext

end Rows

/-- A value is accepted if there is no reason to refuse it. -/
theorem refuse_eq_ok_iff (field value : String) (reason? : Option String) :
    refuse field value reason? = .ok () ↔ reason? = none := by
  cases reason? with
  | none => exact iff_of_true rfl rfl
  | some reason => exact iff_of_false nofun nofun

/-- A value is refused with its field and the reason. -/
theorem refuse_eq_error_iff (field value : String) (reason? : Option String) (cause : Failure) :
    refuse field value reason? = .error cause ↔
      ∃ reason, reason? = some reason ∧ cause = .invalidSetting field value reason := by
  cases reason? with
  | none => exact iff_of_false nofun fun ⟨_, h, _⟩ => nomatch h
  | some reason =>
      simp only [refuse, Except.error.injEq, Option.some.injEq, exists_eq_left']
      exact eq_comm

/-- A check that knows one reason only accepts a value if the reason does not apply. -/
theorem refuse_ite_eq_ok_iff (field value reason : String) (p : Prop) [Decidable p] :
    refuse field value (if p then some reason else none) = .ok () ↔ ¬p := by
  by_cases hp : p
  · rw [if_pos hp, refuse_eq_ok_iff]
    exact iff_of_false nofun (not_not_intro hp)
  · rw [if_neg hp, refuse_eq_ok_iff]
    exact iff_of_true rfl hp

/-- A check that knows one reason only refuses a value if the reason applies. -/
theorem refuse_ite_eq_error_iff (field value reason : String) (p : Prop) [Decidable p]
    (cause : Failure) :
    refuse field value (if p then some reason else none) = .error cause ↔
      p ∧ cause = .invalidSetting field value reason := by
  rw [refuse_eq_error_iff]
  by_cases hp : p
  · simp only [hp, if_true, Option.some.injEq, exists_eq_left', true_and]
  · simp only [hp, if_false, reduceCtorEq, false_and, exists_false]

/-- The empty text is no URL. -/
theorem ne_empty_of_parse {text : String} {url : Url} (h : Url.parse text = .ok url) : text ≠ "" := by
  rintro rfl
  have hparse : Url.parse "" = .error .relative := rfl
  exact nomatch hparse.symm.trans h

/-- What there is to say about a text that is a URL goes by its scheme. -/
theorem urlReason_of_parse {text : String} {url : Url} (h : Url.parse text = .ok url) :
    urlReason text =
      if url.scheme = "http" ∨ url.scheme = "https" then none
      else some ("Unsupported URL scheme: " ++ url.scheme) := by
  have hscheme : schemes.contains url.scheme = true ↔ url.scheme = "http" ∨ url.scheme = "https" := by
    rw [List.contains_iff_mem, schemes, List.mem_cons, List.mem_singleton]
  have hempty : text.isEmpty ≠ true := fun he => ne_empty_of_parse h (String.isEmpty_iff.mp he)
  simp only [urlReason, if_neg hempty, h, hscheme]

/-- What there is to say about a text that is no URL. -/
theorem urlReason_of_fault {text : String} {fault : UrlFault} (h : Url.parse text = .error fault) :
    urlReason text =
      if text = "" then some "URL cannot be empty"
      else some ("Invalid URL format: " ++ fault.message) := by
  simp only [urlReason, String.isEmpty_iff, h]

/-- The reasons against a URL. -/
theorem urlReason_eq_some_iff (text reason : String) :
    urlReason text = some reason ↔ UrlFlaw text reason := by
  constructor
  · intro h
    -- An empty text is no URL, so its reason is one of those that do not parse.
    cases hparse : Url.parse text with
    | error fault =>
        rw [urlReason_of_fault hparse] at h
        by_cases hempty : text = ""
        · rw [if_pos hempty] at h
          rw [hempty, ← Option.some.inj h]
          exact .empty
        · rw [if_neg hempty] at h
          rw [← Option.some.inj h]
          exact .malformed hempty hparse
    | ok url =>
        rw [urlReason_of_parse hparse] at h
        by_cases hscheme : url.scheme = "http" ∨ url.scheme = "https"
        · rw [if_pos hscheme] at h
          exact nomatch h
        · rw [if_neg hscheme] at h
          rw [← Option.some.inj h]
          exact .scheme hparse (fun hc => hscheme (Or.inl hc)) (fun hc => hscheme (Or.inr hc))
  · intro h
    cases h with
    | empty => rfl
    | malformed hsome hparse => rw [urlReason_of_fault hparse, if_neg hsome]
    | scheme hparse hhttp hhttps =>
        rw [urlReason_of_parse hparse, if_neg (not_or.mpr ⟨hhttp, hhttps⟩)]

/-- There is nothing against the URLs of servers of the web. -/
theorem urlReason_eq_none_iff (text : String) : urlReason text = none ↔ Reachable text := by
  constructor
  · intro h
    cases hparse : Url.parse text with
    | error fault =>
        rw [urlReason_of_fault hparse] at h
        by_cases hempty : text = ""
        · exact nomatch (if_pos hempty).symm.trans h
        · exact nomatch (if_neg hempty).symm.trans h
    | ok url =>
        refine ⟨url, hparse, ?_⟩
        by_contra hscheme
        rw [urlReason_of_parse hparse, if_neg hscheme] at h
        exact nomatch h
  · rintro ⟨url, hparse, hscheme⟩
    rw [urlReason_of_parse hparse, if_pos hscheme]

theorem url_eq_ok_iff (field text : String) : url field text = .ok () ↔ Reachable text := by
  rw [url, refuse_eq_ok_iff, urlReason_eq_none_iff]

theorem url_eq_error_iff (field text : String) (cause : Failure) :
    url field text = .error cause ↔
      ∃ reason, UrlFlaw text reason ∧ cause = .invalidSetting field text reason := by
  simp only [url, refuse_eq_error_iff, urlReason_eq_some_iff]

theorem notBlank_eq_ok_iff (field text : String) :
    notBlank field text = .ok () ↔ ∃ c ∈ text.toList, Text.isBlank c = false := by
  rw [notBlank, blankReason, refuse_ite_eq_ok_iff, Text.allBlank, Bool.not_eq_true, List.all_eq_false]
  simp only [Bool.not_eq_true]

theorem notBlank_eq_error_iff (field text : String) (cause : Failure) :
    notBlank field text = .error cause ↔
      (∀ c ∈ text.toList, Text.isBlank c = true) ∧
        cause = .invalidSetting field text "Value cannot be empty or whitespace-only" := by
  rw [notBlank, blankReason, refuse_ite_eq_error_iff, Text.allBlank, List.all_eq_true]

theorem atLeast_eq_ok_iff (field : String) (least value : UInt64) :
    atLeast field least value = .ok () ↔ least ≤ value := by
  rw [atLeast, leastReason, refuse_ite_eq_ok_iff, UInt64.not_lt]

theorem atLeast_eq_error_iff (field : String) (least value : UInt64) (cause : Failure) :
    atLeast field least value = .error cause ↔
      value < least ∧ cause = .invalidSetting field (toString value.toNat)
        ("Value must be at least " ++ toString least.toNat) := by
  rw [atLeast, leastReason, refuse_ite_eq_error_iff]

/-- The reasons against a path. A path with a null byte in it is not empty. -/
theorem pathReason_eq_some_iff (value reason : String) :
    pathReason value = some reason ↔ PathFlaw value reason := by
  have hnul : value.toList.contains '\x00' = true ↔ '\x00' ∈ value.toList := List.contains_iff_mem
  constructor
  · intro h
    by_cases hempty : value = ""
    · subst hempty
      rw [← Option.some.inj h]
      exact .empty
    · simp only [pathReason, String.isEmpty_iff, if_neg hempty, hnul] at h
      by_cases hmem : '\x00' ∈ value.toList
      · rw [if_pos hmem] at h
        rw [← Option.some.inj h]
        exact .nul hmem
      · rw [if_neg hmem] at h
        exact nomatch h
  · intro h
    cases h with
    | empty => rfl
    | nul hmem =>
        have hempty : value ≠ "" := by
          rintro rfl
          exact nomatch hmem
        simp only [pathReason, String.isEmpty_iff, if_neg hempty, hnul, if_pos hmem]

theorem path_eq_ok_iff (field value : String) :
    path field value = .ok () ↔ value ≠ "" ∧ '\x00' ∉ value.toList := by
  have hnone : pathReason value = none ↔ ∀ reason, ¬PathFlaw value reason := by
    simp only [← pathReason_eq_some_iff, Option.eq_none_iff_forall_ne_some, ne_eq]
  -- A path passes if there is no reason against it, and there are two of them.
  rw [path, refuse_eq_ok_iff, hnone]
  constructor
  · intro h
    refine ⟨?_, fun hmem => h _ (.nul hmem)⟩
    rintro rfl
    exact h _ .empty
  · rintro ⟨hempty, hnul⟩ reason hflaw
    cases hflaw with
    | empty => exact hempty rfl
    | nul hmem => exact hnul hmem

theorem path_eq_error_iff (field value : String) (cause : Failure) :
    path field value = .error cause ↔
      ∃ reason, PathFlaw value reason ∧ cause = .invalidSetting field value reason := by
  simp only [path, refuse_eq_error_iff, pathReason_eq_some_iff]

/-- A setting that has to be there is there with its value. -/
theorem present_eq_ok_iff {α : Type} (field : String) (value? : Option α) (value : α) :
    present field value? = .ok value ↔ value? = some value := by
  cases value? with
  | none => exact iff_of_false nofun nofun
  | some other => rw [present, Except.ok.injEq, Option.some.injEq]

theorem present_eq_error_iff {α : Type} (field : String) (value? : Option α) (cause : Failure) :
    present field value? = .error cause ↔ value? = none ∧ cause = .missingSetting field := by
  cases value? with
  | none =>
      rw [present, Except.error.injEq, eq_comm]
      exact (and_iff_right rfl).symm
  | some value => exact iff_of_false nofun fun h => nomatch h.1

end Check

end TestbedReport
