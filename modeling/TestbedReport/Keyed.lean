/-!
# Values under Keys

Objects, records and files all are lists of values under keys, where the order
means something and no key stands twice. Setting a value keeps the place of a
key that is there and puts a new one at the end. It is one function for all of
them, so that a record filled column by column and an object with repeated keys
agree by construction. Taking a value out closes the gap that it leaves, so the
others stay in their order.

## Main definitions

* `Keyed.put`: Sets the value under a key.
* `Keyed.takeOut`: Takes the value under a key out of its place.
* `Keyed.settle`: What a list with repeated keys comes to.

## Theorems

* `Keyed.lookup_put`: The value under a key after one is set.
* `Keyed.keys_put`: The keys after a value is set.
* `Keyed.nodup_put`: No key is doubled.
* `Keyed.sublist_takeOut`: What is left is left in its order.
-/

namespace TestbedReport

namespace Keyed

variable {κ α : Type} [BEq κ]

/-- Sets the value under a key. A key that is present keeps its position; a new
    one goes to the end. -/
def put (key : κ) (value : α) : List (κ × α) → List (κ × α)
  | [] => [(key, value)]
  | (k, v) :: rest => if k == key then (key, value) :: rest else (k, v) :: put key value rest

/-- Takes the first entry under a key out. The result is its value, if there is one,
    and what is left. -/
def takeOut (key : κ) : List (κ × α) → Option α × List (κ × α)
  | [] => (none, [])
  | (k, v) :: rest =>
    if k == key then (some v, rest)
    else
      let (taken, left) := takeOut key rest
      (taken, (k, v) :: left)

/-- What a list with possible repeats comes to: each key where it first stood,
    with the value that came last. -/
def settle (written : List (κ × α)) : List (κ × α) :=
  written.foldl (fun settled entry => put entry.1 entry.2 settled) []

/-- Taking an entry out leaves the others in their order. -/
theorem sublist_takeOut (key : κ) (entries : List (κ × α)) :
    (takeOut key entries).2.Sublist entries := by
  induction entries with
  | nil => exact List.Sublist.refl []
  | cons entry rest ih =>
    by_cases hkey : (entry.1 == key) = true
    · rw [takeOut, if_pos hkey]
      exact List.sublist_cons_self entry rest
    · rw [takeOut, if_neg hkey]
      exact ih.cons_cons entry

variable [LawfulBEq κ]

/-- The value that was set is found under its key, and every other key has the
    value it had. -/
theorem lookup_put (key k : κ) (value : α) (entries : List (κ × α)) :
    (put key value entries).lookup k = if k == key then some value else entries.lookup k := by
  induction entries with
  | nil =>
    by_cases h : k = key
    · simp [put, h]
    · have hb : (k == key) = false := by simpa using h
      simp [put, List.lookup_cons, hb]
  | cons entry rest ih =>
    obtain ⟨k', v⟩ := entry
    -- Only an entry under the key itself is replaced, the rest is by induction.
    by_cases hkey : k' = key
    · subst hkey
      by_cases h : k = k'
      · simp [put, h]
      · have hb : (k == k') = false := by simpa using h
        simp [put, List.lookup_cons, hb]
    · by_cases h : k = k'
      · subst h
        simp [put, hkey]
      · have hb : (k == k') = false := by simpa using h
        simp [put, List.lookup_cons, hkey, hb, ih]

/-- Setting a value leaves the keys as they were if the key is among them, and
    otherwise adds it at the end. -/
theorem keys_put (key : κ) (value : α) (entries : List (κ × α)) :
    (put key value entries).map (·.1) =
      if entries.map (·.1) |>.contains key then entries.map (·.1)
      else entries.map (·.1) ++ [key] := by
  induction entries with
  | nil => simp [put]
  | cons entry rest ih =>
    obtain ⟨k, v⟩ := entry
    by_cases h : k = key
    · simp [put, h]
    · have h' : ¬key = k := fun he => h he.symm
      simp only [put, beq_iff_eq, h, if_false, List.map_cons, ih, List.contains_cons]
      have hb : (key == k) = false := by simpa using h'
      simp only [hb, Bool.false_or]
      -- The key is in the rest or it is not, with `k` in front of it both times.
      split <;> simp

/-- No key is doubled by setting a value. -/
theorem nodup_put (key : κ) (value : α) (entries : List (κ × α))
    (h : (entries.map (·.1)).Nodup) : ((put key value entries).map (·.1)).Nodup := by
  rw [keys_put]
  split
  · exact h
  · next hnot =>
    refine List.nodup_append.2 ⟨h, by simp, ?_⟩
    intro a ha b hb hab
    simp only [List.mem_singleton] at hb
    -- The new key would be one of the old ones.
    refine hnot ?_
    rw [List.contains_iff_mem, ← hb, ← hab]
    exact ha

end Keyed

end TestbedReport
