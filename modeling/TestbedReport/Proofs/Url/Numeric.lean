import Mathlib.Data.List.TakeWhile
import Mathlib.Tactic.Ring
import TestbedReport.Url.Host

/-!
# Hosts in Numbers

A host that is an address is kept as a number and written in one form. The form is one
of the many that are read, and it is read as the number it was written for.

For version 4 this is a matter of four bytes. In version 6 the longest run of zeros is
left out, and a reader finds the place again because a double colon occurs nowhere
else: every colon between two groups has a digit behind it. How many zeros belong there
follows from the number of groups that are left, as there are eight in all.

## Theorems

* `Text.valueIn?_toDigits`, `Text.valueIn?_lt`: A number is read back to any base, and it
  is below the power of its digits.
* `Ipv4.parse_lt`, `Ipv6.parse_groups`: What an address is.
* `Ipv4.parse_write`: An address of version 4 is read back.
* `Ipv6.zeroRun_zeros`: What is left out is zeros.
* `Ipv6.splitDouble_writeGroups`: There is no other double colon.
* `Ipv6.parse_write`: An address of version 6 is read back.
-/

namespace TestbedReport

namespace Text

theorem hexValue?_digitChar {d : Nat} (hd : d < 16) : hexValue? (Nat.digitChar d) = some d := by
  have hall : ∀ d < 16, hexValue? (Nat.digitChar d) = some d := by decide
  exact hall d hd

/-- A number is read back to any base. -/
theorem valueIn?_toDigits {base : Nat} (hone : 1 < base) (hsixteen : base ≤ 16) (n : Nat) :
    valueIn? base (Nat.toDigits base n) = some n := by
  induction n using Nat.strong_induction_on with
  | _ n ih =>
      rw [Nat.toDigits_eq_if hone]
      by_cases hsmall : n < base
      · rw [if_pos hsmall, valueIn?]
        simp [hexValue?_digitChar (Nat.lt_of_lt_of_le hsmall hsixteen), hsmall]
      · have hrest : n % base < base := Nat.mod_lt _ (by omega)
        have hdiv : n / base < n := Nat.div_lt_self (by omega) hone
        -- The digits but the last are those of the quotient.
        have hfront := ih _ hdiv
        rw [valueIn?] at hfront
        rw [if_neg hsmall, valueIn?, List.foldlM_append, hfront]
        simp [hexValue?_digitChar (Nat.lt_of_lt_of_le hrest hsixteen), hrest,
          Nat.mul_comm (n / base), Nat.div_add_mod]

/-- Whatever grows by a digit in every step stays below the power of the base. -/
theorem foldlM_lt {base : Nat} {step : Nat → Char → Option Nat}
    (hstep : ∀ value c next, step value c = some next → next + 1 ≤ (value + 1) * base)
    {cs : List Char} {start n : Nat} (h : cs.foldlM step start = some n) :
    n < (start + 1) * base ^ cs.length := by
  induction cs generalizing start with
  | nil =>
      rw [List.foldlM_nil] at h
      rw [← Option.some.inj h]
      simp
  | cons c rest ih =>
      rw [List.foldlM_cons] at h
      rcases Option.bind_eq_some_iff.mp h with ⟨next, hnext, hrest⟩
      calc n < (next + 1) * base ^ rest.length := ih hrest
        _ ≤ (start + 1) * base * base ^ rest.length :=
          Nat.mul_le_mul_right _ (hstep start c next hnext)
        _ = (start + 1) * base ^ (c :: rest).length := by rw [List.length_cons]; ring

/-- Digits make no more than there are numbers of that many. -/
theorem valueIn?_lt {base : Nat} {cs : List Char} {n : Nat} (h : valueIn? base cs = some n) :
    n < base ^ cs.length := by
  suffices hbound : n < (0 + 1) * base ^ cs.length by
    rwa [Nat.zero_add, Nat.one_mul] at hbound
  -- A digit is below the base, so the bound of a step holds.
  refine foldlM_lt (fun value c next hnext => ?_) h
  split at hnext
  · split at hnext
    · cases hnext
      rw [Nat.add_mul]
      omega
    · cases hnext
  · cases hnext

end Text

/-- The digits of a number are those of the base. -/
theorem mem_toDigits {base n : Nat} {c : Char} (hone : 1 < base) (hc : c ∈ Nat.toDigits base n) :
    ∃ d < base, c = Nat.digitChar d := by
  induction n using Nat.strong_induction_on with
  | _ n ih =>
      rw [Nat.toDigits_eq_if hone] at hc
      by_cases hsmall : n < base
      · rw [if_pos hsmall, List.mem_singleton] at hc
        exact ⟨n, hsmall, hc⟩
      · rw [if_neg hsmall, List.mem_append, List.mem_singleton] at hc
        rcases hc with hfront | hlast
        · exact ih _ (Nat.div_lt_self (by omega) hone) hfront
        · exact ⟨_, Nat.mod_lt _ (by omega), hlast⟩

namespace Ipv4

section Bounds

theorem foldl_bytes_lt {bytes : List Nat} (hbytes : ∀ byte ∈ bytes, byte ≤ 255) (start : Nat) :
    bytes.foldl (fun value byte => value * 256 + byte) start <
      (start + 1) * 256 ^ bytes.length := by
  induction bytes generalizing start with
  | nil => simp
  | cons byte rest ih =>
      have hbyte := hbytes byte List.mem_cons_self
      calc rest.foldl (fun value byte => value * 256 + byte) (start * 256 + byte)
          < (start * 256 + byte + 1) * 256 ^ rest.length :=
            ih (fun b hb => hbytes b (List.mem_cons_of_mem _ hb)) _
        _ ≤ ((start + 1) * 256) * 256 ^ rest.length := Nat.mul_le_mul_right _ (by omega)
        _ = (start + 1) * 256 ^ (byte :: rest).length := by rw [List.length_cons]; ring

/-- An address has four bytes. -/
theorem parse_lt {name : List Char} {address : Nat} (h : parse name = .ok address) :
    address < 256 ^ 4 := by
  unfold parse at h
  split at h
  · cases h
  · split at h
    · cases h
    · next numbers _ _ last _ =>
      simp only at h
      split at h
      · cases h
      · next hfits =>
        simp only [not_or, Nat.not_lt, Nat.not_le, List.any_eq_true, not_exists, not_and,
          decide_eq_true_eq] at hfits
        rcases hfits with ⟨hlength, hbytes, hlast⟩
        -- The bytes in front and the last part have the four places between them.
        have hhigh := foldl_bytes_lt hbytes 0
        have hpow : 256 ^ numbers.dropLast.length * 256 ^ (4 - numbers.dropLast.length) =
            256 ^ 4 := by
          rw [← Nat.pow_add, Nat.add_sub_cancel' (by omega)]
        rw [← Except.ok.inj h, ← hpow]
        generalize numbers.dropLast.foldl (fun value byte => value * 256 + byte) 0 = high at hhigh ⊢
        have hbelow : last < 256 ^ (4 - numbers.dropLast.length) := hlast
        calc high * 256 ^ (4 - numbers.dropLast.length) + last
            < (high + 1) * 256 ^ (4 - numbers.dropLast.length) := by
              rw [Nat.add_mul, Nat.one_mul]
              exact Nat.add_lt_add_left hbelow _
          _ ≤ _ := Nat.mul_le_mul_right _ (by rw [Nat.zero_add, Nat.one_mul] at hhigh; exact hhigh)

end Bounds

/-- One of the bytes of an address. -/
def byteAt (address n : Nat) : Nat :=
  address / 256 ^ n % 256

/-- An address as its four bytes, the highest first. -/
def bytesOf (address : Nat) : List Nat :=
  [byteAt address 3, byteAt address 2, byteAt address 1, byteAt address 0]

theorem byteAt_lt (address n : Nat) : byteAt address n < 256 :=
  Nat.mod_lt _ (by decide)

/-- The bytes of an address put together again, all but the lowest one. -/
theorem higherBytes {address : Nat} (h : address < 256 ^ 4) :
    ((0 * 256 + byteAt address 3) * 256 + byteAt address 2) * 256 + byteAt address 1 =
      address / 256 := by
  simp only [byteAt]
  omega

/-- The lowest byte completes the address. -/
theorem lowestByte (address : Nat) : address / 256 * 256 + byteAt address 0 = address := by
  simp only [byteAt]
  omega

theorem write_eq (address : Nat) :
    write address = Decimal.ofNat (byteAt address 3) ++ '.' :: Decimal.ofNat (byteAt address 2) ++
      '.' :: Decimal.ofNat (byteAt address 1) ++ '.' :: Decimal.ofNat (byteAt address 0) :=
  rfl

theorem dot_not_mem_ofNat (n : Nat) : '.' ∉ Decimal.ofNat n := fun hmem => by
  have hdigit := List.all_eq_true.mp (Decimal.all_isDigit_ofNat n) _ hmem
  exact absurd hdigit (by decide)

theorem splitOn_write (address : Nat) :
    Text.splitOn '.' (write address) = (bytesOf address).map Decimal.ofNat := by
  refine Text.splitOn_of_flatMap (List.cons_ne_nil _ _) (fun piece hpiece => ?_) ?_
  · rcases List.mem_map.mp hpiece with ⟨n, _, rfl⟩
    exact dot_not_mem_ofNat n
  · simp only [bytesOf, write_eq, List.map_cons, List.map_nil, List.flatMap_cons,
      List.flatMap_nil, List.append_nil, List.cons_append, List.append_assoc]

theorem parts_write (address : Nat) :
    parts (write address) = (bytesOf address).map Decimal.ofNat := by
  unfold parts
  rw [splitOn_write]
  refine if_neg fun hends => Decimal.ofNat_ne_nil (byteAt address 0) ?_
  exact Option.some.inj hends.2

theorem part?_ofNat {n : Nat} (hn : n < 256) : part? (Decimal.ofNat n) = some n := by
  have hall : ∀ n < 256, part? (Decimal.ofNat n) = some n := by decide +kernel
  exact hall n hn

/-- What is written for an address is meant as one. -/
theorem isMeant_write (address : Nat) : isMeant (write address) = true := by
  have hne : (Decimal.ofNat (byteAt address 0)).isEmpty = false := by
    simp [Decimal.ofNat_ne_nil]
  unfold isMeant
  rw [parts_write]
  simp only [bytesOf, List.map_cons, List.map_nil, List.getLast?_cons_cons,
    List.getLast?_singleton, hne, Decimal.all_isDigit_ofNat, Bool.not_false, Bool.true_and,
    Bool.true_or]

/-- **An address of version 4** is read back. -/
theorem parse_write {address : Nat} (h : address < 256 ^ 4) :
    parse (write address) = .ok address := by
  have hnumbers : ((bytesOf address).map Decimal.ofNat).mapM part? = some (bytesOf address) := by
    simp only [bytesOf, List.map_cons, List.map_nil, List.mapM_cons, List.mapM_nil,
      part?_ofNat (byteAt_lt _ _)]
    rfl
  have hlast := byteAt_lt address 0
  have hbytes : ([byteAt address 3, byteAt address 2, byteAt address 1].any (255 < ·)) = false := by
    have h3 := byteAt_lt address 3
    have h2 := byteAt_lt address 2
    have h1 := byteAt_lt address 1
    simp
    omega
  unfold parse
  rw [parts_write, hnumbers]
  simp only [bytesOf, List.getLast?_cons_cons, List.getLast?_singleton, List.dropLast_cons_cons,
    List.dropLast_singleton, List.length_cons, List.length_nil, hbytes, List.foldl_cons,
    List.foldl_nil, higherBytes h]
  -- The last part stands for the bytes that are left, which is one of them.
  have hone : Nat.pow 256 (4 - (0 + 1 + 1 + 1)) = 256 := rfl
  rw [hone, lowestByte, if_neg (by simp; omega)]

end Ipv4

namespace Ipv6

section Groups

theorem group?_lt {cs : List Char} {group : Nat} (h : group? cs = some group) : group < 65536 := by
  unfold group? at h
  split at h
  · cases h
  · next hlength =>
    simp only [Bool.or_eq_true, decide_eq_true_eq, not_or, Nat.not_lt] at hlength
    calc group < 16 ^ cs.length := Text.valueIn?_lt h
      _ ≤ 16 ^ 4 := Nat.pow_le_pow_right (by decide) hlength.2

theorem byte?_le {cs : List Char} {byte : Nat} (h : byte? cs = some byte) : byte ≤ 255 := by
  unfold byte? at h
  split at h
  · cases h
  · split at h
    · next hbyte =>
      rw [← Option.some.inj h]
      exact hbyte.1
    · cases h

/-- Everything that is read comes from a piece. -/
theorem exists_of_mem_mapM {f : List Char → Option Nat} {pieces : List (List Char)}
    {numbers : List Nat} (h : pieces.mapM f = some numbers) :
    ∀ number ∈ numbers, ∃ piece, f piece = some number := by
  induction pieces generalizing numbers with
  | nil =>
      rw [List.mapM_nil] at h
      rw [← Option.some.inj h]
      exact fun number hnumber => nomatch hnumber
  | cons piece rest ih =>
      rw [List.mapM_cons] at h
      rcases Option.bind_eq_some_iff.mp h with ⟨first, hfirst, hbehind⟩
      rcases Option.bind_eq_some_iff.mp hbehind with ⟨tail, htail, hnumbers⟩
      rw [← Option.some.inj hnumbers]
      intro number hnumber
      rcases List.mem_cons.mp hnumber with hhead | hlater
      · exact ⟨piece, by rw [hhead, hfirst]⟩
      · exact ih htail number hlater

theorem dotted?_lt {cs : List Char} {groups : List Nat} (h : dotted? cs = some groups) :
    ∀ group ∈ groups, group < 65536 := by
  unfold dotted? at h
  split at h
  · next a b c d hbytes =>
    have hbyte : ∀ byte ∈ [a, b, c, d], byte ≤ 255 := by
      intro byte hmem
      rcases exists_of_mem_mapM hbytes byte hmem with ⟨piece, hpiece⟩
      exact byte?_le hpiece
    simp only [List.forall_mem_cons] at hbyte
    rw [← Option.some.inj h]
    simp only [List.forall_mem_cons, List.not_mem_nil, false_implies, implies_true, and_true]
    omega
  · cases h

theorem groups?_cons_cons (mayDot : Bool) (piece next : List Char) (tail : List (List Char)) :
    groups? mayDot (piece :: next :: tail) =
      (group? piece).bind fun group =>
        (groups? mayDot (next :: tail)).bind fun groups => some (group :: groups) :=
  rfl

theorem groups?_lt {mayDot : Bool} {pieces : List (List Char)} {groups : List Nat}
    (h : groups? mayDot pieces = some groups) : ∀ group ∈ groups, group < 65536 := by
  induction pieces generalizing groups with
  | nil =>
      rw [← Option.some.inj h]
      exact fun group hgroup => nomatch hgroup
  | cons piece rest ih =>
      -- Only the last piece may be dotted.
      cases rest with
      | nil =>
          rw [groups?] at h
          split at h
          · exact dotted?_lt h
          · rcases Option.map_eq_some_iff.mp h with ⟨group, hgroup, hgroups⟩
            rw [← hgroups]
            exact fun other hother => List.mem_singleton.mp hother ▸ group?_lt hgroup
      | cons next tail =>
          rw [groups?_cons_cons] at h
          rcases Option.bind_eq_some_iff.mp h with ⟨group, hgroup, hbehind⟩
          rcases Option.bind_eq_some_iff.mp hbehind with ⟨others, hothers, hgroups⟩
          rw [← Option.some.inj hgroups]
          exact List.forall_mem_cons.mpr ⟨group?_lt hgroup, ih hothers⟩

theorem groupsOf?_lt {mayDot : Bool} {cs : List Char} {groups : List Nat}
    (h : groupsOf? mayDot cs = some groups) : ∀ group ∈ groups, group < 65536 := by
  unfold groupsOf? at h
  split at h
  · rw [← Option.some.inj h]
    exact fun group hgroup => nomatch hgroup
  · exact groups?_lt h

/-- An address has eight groups of 16 bits. -/
theorem parse_groups {cs : List Char} {groups : List Nat} (h : parse cs = .ok groups) :
    groups.length = 8 ∧ ∀ group ∈ groups, group < 65536 := by
  -- Without a double colon the number of groups is checked. With one it is made up to eight.
  unfold parse at h
  cases hdouble : splitDouble cs with
  | none =>
      simp only [hdouble] at h
      split at h
      · next read hread =>
        rcases Option.bind_eq_some_iff.mp hread with ⟨all, hall, hchecked⟩
        split at hchecked
        · next hlength =>
          rw [← Except.ok.inj h, ← Option.some.inj hchecked]
          exact ⟨hlength, groups?_lt hall⟩
        · cases hchecked
      · cases h
  | some halves =>
      rcases halves with ⟨before, after⟩
      simp only [hdouble] at h
      split at h
      · next read hread =>
        rcases Option.bind_eq_some_iff.mp hread with ⟨front, hfront, hbehind⟩
        rcases Option.bind_eq_some_iff.mp hbehind with ⟨back, hback, hchecked⟩
        split at hchecked
        · next hknown =>
          rw [← Except.ok.inj h, ← Option.some.inj hchecked]
          constructor
          · simp only [List.length_append, List.length_replicate]
            omega
          · intro group hgroup
            rcases List.mem_append.mp hgroup with hfirst | hlast
            · rcases List.mem_append.mp hfirst with hin | hzero
              · exact groupsOf?_lt hfront group hin
              · rw [List.eq_of_mem_replicate hzero]
                decide
            · exact groupsOf?_lt hback group hlast
        · cases hchecked
      · cases h

end Groups

section Zeros

/-- What is left out is zeros. -/
theorem zeroRun_zeros (groups : List Nat) :
    (groups.drop (zeroRun groups).1).take (zeroRun groups).2 =
      List.replicate (zeroRun groups).2 0 := by
  -- The search goes over the starts, and what it has found so far is always a run of zeros.
  have hsearch : ∀ (starts : List Nat) (best : Nat × Nat),
      (groups.drop best.1).take best.2 = List.replicate best.2 0 →
      let found := starts.foldl (fun best start =>
        let run := ((groups.drop start).takeWhile (· = 0)).length
        if best.2 < run then (start, run) else best) best
      (groups.drop found.1).take found.2 = List.replicate found.2 0 := by
    intro starts
    induction starts with
    | nil => exact fun best hbest => hbest
    | cons start rest ih =>
        intro best hbest
        rw [List.foldl_cons]
        refine ih _ ?_
        simp only
        split
        · have htake : (groups.drop start).take ((groups.drop start).takeWhile (· = 0)).length =
              (groups.drop start).takeWhile (· = 0) :=
            (List.prefix_iff_eq_take.mp (List.takeWhile_prefix _)).symm
          rw [htake]
          refine List.eq_replicate_of_mem fun group hgroup => ?_
          have hzero := List.mem_takeWhile_imp hgroup
          exact of_decide_eq_true hzero
        · exact hbest
  exact hsearch _ (0, 0) rfl

/-- An address is what is in front of the zeros, the zeros, and what is behind them. -/
theorem take_zeroRun_append (groups : List Nat) :
    groups.take (zeroRun groups).1 ++ List.replicate (zeroRun groups).2 0 ++
      groups.drop ((zeroRun groups).1 + (zeroRun groups).2) = groups := by
  rw [← zeroRun_zeros, ← List.drop_drop, List.append_assoc, List.take_append_drop,
    List.take_append_drop]

end Zeros

section Writing

theorem not_mem_toDigits {group : Nat} {mark : Char} (hmark : ∀ d < 16, mark ≠ Nat.digitChar d) :
    mark ∉ Nat.toDigits 16 group := fun hmem => by
  rcases mem_toDigits (by decide) hmem with ⟨d, hd, heq⟩
  exact hmark d hd heq

theorem colon_not_mem_toDigits (group : Nat) : ':' ∉ Nat.toDigits 16 group :=
  not_mem_toDigits (by decide)

theorem group?_toDigits {group : Nat} (h : group < 65536) :
    group? (Nat.toDigits 16 group) = some group := by
  have hlength : (Nat.toDigits 16 group).length ≤ 4 :=
    (Nat.length_toDigits_le_iff (by decide) (by decide)).mpr h
  unfold group?
  rw [if_neg, Text.valueIn?_toDigits (by decide) (by decide)]
  simp [Nat.toDigits_ne_nil]
  omega

/-- Groups are read back one by one. -/
theorem groups?_map_toDigits (mayDot : Bool) {groups : List Nat}
    (h : ∀ group ∈ groups, group < 65536) :
    groups? mayDot (groups.map (Nat.toDigits 16)) = some groups := by
  induction groups with
  | nil => rfl
  | cons group rest ih =>
      rw [List.forall_mem_cons] at h
      have hfirst := group?_toDigits h.1
      have hrest := ih h.2
      cases rest with
      | nil =>
          -- Digits have no dot, so the last group is read like the others.
          have hnone : '.' ∉ Nat.toDigits 16 group := not_mem_toDigits (by decide)
          have hdot : (Nat.toDigits 16 group).contains '.' = false := by simpa using hnone
          simp only [List.map_cons, List.map_nil, groups?, hdot, Bool.and_false,
            Bool.false_eq_true, if_false, hfirst, Option.map_some]
      | cons next tail =>
          rw [List.map_cons] at hrest
          rw [List.map_cons, List.map_cons, groups?_cons_cons, hfirst, hrest]
          rfl

theorem flatMap_writeGroups {groups : List Nat} (h : groups ≠ []) :
    (groups.map (Nat.toDigits 16)).flatMap (':' :: ·) = ':' :: writeGroups groups := by
  induction groups with
  | nil => exact absurd rfl h
  | cons group rest ih =>
      cases rest with
      | nil => simp [writeGroups]
      | cons next tail =>
          rw [List.map_cons, List.flatMap_cons, ih (List.cons_ne_nil _ _)]
          rfl

theorem splitOn_writeGroups {groups : List Nat} (h : groups ≠ []) :
    Text.splitOn ':' (writeGroups groups) = groups.map (Nat.toDigits 16) := by
  refine Text.splitOn_of_flatMap (by simpa using h) (fun piece hpiece => ?_)
    (flatMap_writeGroups h)
  rcases List.mem_map.mp hpiece with ⟨group, _, rfl⟩
  exact colon_not_mem_toDigits group

theorem groupsOf?_writeGroups (mayDot : Bool) {groups : List Nat}
    (h : ∀ group ∈ groups, group < 65536) :
    groupsOf? mayDot (writeGroups groups) = some groups := by
  cases groups with
  | nil => rfl
  | cons group rest =>
      -- No group is written as nothing, so the text is not empty.
      have hne : (writeGroups (group :: rest)).isEmpty = false := by
        cases rest with
        | nil => simp [writeGroups, Nat.toDigits_ne_nil]
        | cons next tail => simp [writeGroups]
      unfold groupsOf?
      rw [hne, if_neg Bool.false_ne_true, splitOn_writeGroups (List.cons_ne_nil _ _),
        groups?_map_toDigits _ h]

/-- Digits do not begin a double colon. -/
theorem splitDouble_append {digits : List Char} (h : ':' ∉ digits) (rest : List Char) :
    splitDouble (digits ++ rest) =
      (splitDouble rest).map fun (before, after) => (digits ++ before, after) := by
  induction digits with
  | nil => simp
  | cons c digits ih =>
      rw [List.mem_cons, not_or] at h
      have hc : ¬(c = ':' ∧ (digits ++ rest).head? = some ':') := fun hboth => h.1 hboth.1.symm
      rw [List.cons_append, splitDouble, if_neg hc, ih h.2, Option.map_map]
      rfl

/-- Groups do not begin with a colon. -/
theorem head?_writeGroups_append (groups : List Nat) (h : groups ≠ []) (more : List Char) :
    (writeGroups groups ++ more).head? ≠ some ':' := by
  -- A group has a digit at least, and that is where the text begins.
  have hdigits : ∀ group : Nat, ∀ more : List Char,
      (Nat.toDigits 16 group ++ more).head? ≠ some ':' := by
    intro group more hhead
    rcases List.exists_cons_of_ne_nil (Nat.toDigits_ne_nil (n := group) (b := 16)) with
      ⟨c, rest, hcons⟩
    rw [hcons, List.cons_append, List.head?_cons] at hhead
    refine colon_not_mem_toDigits group ?_
    rw [hcons, Option.some.inj hhead]
    exact List.mem_cons_self
  cases groups with
  | nil => exact absurd rfl h
  | cons group rest =>
      cases rest with
      | nil => exact hdigits group more
      | cons next tail =>
          have hwrite : writeGroups (group :: next :: tail) =
              Nat.toDigits 16 group ++ ':' :: writeGroups (next :: tail) := rfl
          rw [hwrite, List.append_assoc]
          exact hdigits group _

/-- **There is no other double colon** than the one behind the groups, if there is one. -/
theorem splitDouble_writeGroups (groups : List Nat) :
    splitDouble (writeGroups groups) = none ∧
      ∀ rest, splitDouble (writeGroups groups ++ ':' :: ':' :: rest) =
        some (writeGroups groups, rest) := by
  induction groups with
  | nil => exact ⟨rfl, fun rest => rfl⟩
  | cons group tail ih =>
      have hcolon := colon_not_mem_toDigits group
      cases tail with
      | nil =>
          constructor
          · have hnone := splitDouble_append hcolon []
            rw [List.append_nil] at hnone
            exact hnone
          · intro rest
            have hfound := splitDouble_append hcolon (':' :: ':' :: rest)
            rw [writeGroups, hfound]
            simp [splitDouble]
      | cons next tail =>
          have hwrite : writeGroups (group :: next :: tail) =
              Nat.toDigits 16 group ++ ':' :: writeGroups (next :: tail) := rfl
          -- Behind the colon that separates two groups stands a digit.
          have hsingle : ∀ more, ¬(':' = ':' ∧ (writeGroups (next :: tail) ++ more).head? =
              some ':') := fun more hboth =>
            head?_writeGroups_append _ (List.cons_ne_nil _ _) more hboth.2
          have hlast := hsingle []
          rw [List.append_nil] at hlast
          constructor
          · rw [hwrite, splitDouble_append hcolon, splitDouble, if_neg hlast, ih.1]
            rfl
          · intro rest
            rw [hwrite, List.append_assoc, List.cons_append, splitDouble_append hcolon, splitDouble,
              if_neg (hsingle _), ih.2]
            rfl

theorem write_eq (groups : List Nat) :
    write groups = if (zeroRun groups).2 < 2 then writeGroups groups
      else writeGroups (groups.take (zeroRun groups).1) ++ [':', ':'] ++
        writeGroups (groups.drop ((zeroRun groups).1 + (zeroRun groups).2)) :=
  rfl

/-- **An address of version 6** is read back. -/
theorem parse_write {groups : List Nat} (hlength : groups.length = 8)
    (hgroups : ∀ group ∈ groups, group < 65536) : parse (write groups) = .ok groups := by
  have hne : groups ≠ [] := by
    intro hnil
    rw [hnil] at hlength
    exact nomatch hlength
  have hwhole := take_zeroRun_append groups
  rw [write_eq]
  generalize (zeroRun groups).1 = start at hwhole ⊢
  generalize (zeroRun groups).2 = run at hwhole ⊢
  by_cases hshort : run < 2
  · rw [if_pos hshort]
    unfold parse
    rw [(splitDouble_writeGroups groups).1]
    simp only [splitOn_writeGroups hne, groups?_map_toDigits true hgroups]
    simp only [Option.bind_eq_bind, Option.bind_some, if_pos hlength]
  · have hfront : ∀ group ∈ groups.take start, group < 65536 := fun group hgroup =>
      hgroups group (List.mem_of_mem_take hgroup)
    have hback : ∀ group ∈ groups.drop (start + run), group < 65536 := fun group hgroup =>
      hgroups group (List.mem_of_mem_drop hgroup)
    have hcount := congrArg List.length hwhole
    rw [List.length_append, List.length_append, List.length_replicate, hlength] at hcount
    have hknown : (groups.take start).length + (groups.drop (start + run)).length < 8 := by omega
    -- As many zeros are missing as have been left out.
    have hmissing : 8 - ((groups.take start).length + (groups.drop (start + run)).length) =
        run := by omega
    have hsplit := (splitDouble_writeGroups (groups.take start)).2
      (writeGroups (groups.drop (start + run)))
    rw [if_neg hshort, List.append_assoc]
    unfold parse
    rw [List.cons_append, List.cons_append, List.nil_append, hsplit]
    simp only [groupsOf?_writeGroups false hfront, groupsOf?_writeGroups true hback]
    simp only [Option.bind_eq_bind, Option.bind_some, if_pos hknown, hmissing, hwhole]

/-- Nothing but digits and colons. -/
theorem mem_writeGroups {groups : List Nat} {c : Char} (hc : c ∈ writeGroups groups) :
    c = ':' ∨ ∃ d < 16, c = Nat.digitChar d := by
  cases groups with
  | nil => exact nomatch hc
  | cons group rest =>
      -- With a colon in front of each, groups are easier to look through.
      have hall := List.mem_cons_of_mem ':' hc
      rw [← flatMap_writeGroups (List.cons_ne_nil _ _)] at hall
      rcases List.mem_flatMap.mp hall with ⟨piece, hpiece, hin⟩
      rcases List.mem_map.mp hpiece with ⟨number, _, rfl⟩
      exact (List.mem_cons.mp hin).imp id (mem_toDigits (by decide))

theorem mem_write {groups : List Nat} {c : Char} (hc : c ∈ write groups) :
    c = ':' ∨ ∃ d < 16, c = Nat.digitChar d := by
  rw [write_eq] at hc
  split at hc
  · exact mem_writeGroups hc
  · rcases List.mem_append.mp hc with hfront | hback
    · rcases List.mem_append.mp hfront with hfirst | hcolons
      · exact mem_writeGroups hfirst
      · exact .inl (by simpa using hcolons)
    · exact mem_writeGroups hback

end Writing

end Ipv6

end TestbedReport
