import TestbedReport.Proofs.Url.Extended
import TestbedReport.Proofs.Url.Name

/-!
# A URL Is Read as It Is Written

The text of a URL is a function of its parts. For a URL of the web that has been read
this function has an inverse, and it is reading: whoever is shown the text and takes it
for a URL has the URL.

Each part has been brought to its form already, and reading leaves it there. What is
shown here in addition is that the parts do not get into each other's way: no part has
the mark that ends it, and no dots are left in a path to take anything along.

The query is free in this. It can be any text that has the form of a query, so that a
URL is also read as it is written when pairs have been added to it or masked.

## Main definitions

* `Authority.Settled`, `UrlPath.Settled`: Parts that are read as they are written.
* `Url.Settled`: A URL of the web in such parts.

## Theorems

* `Url.parseAuthority_body`: An authority is read as it is written.
* `Url.parsePath_write`: So is a path,
* `Url.splitTail_written`: and query and fragment are cut off at their marks.
* `Url.settled_of_parse`: What has been read is settled.
* `Url.parse_text`: What is settled is read as it is written.
-/

namespace TestbedReport

open Url (isBlank)

section Authorities

variable {port : Nat} {a : Authority}

/-- An authority in the form that reading gives it. -/
structure Authority.Settled (port : Nat) (a : Authority) : Prop where
  user : Percent.Encoded Percent.inUserInfo a.user.toList
  password : ∀ password ∈ a.password,
    password.toList ≠ [] ∧ Percent.Encoded Percent.inUserInfo password.toList
  host : a.host.Settled
  port : ∀ number ∈ a.port, number ≤ 65535 ∧ number ≠ port

namespace Authority

/-- User and password as they are written. -/
def userPart (a : Authority) : List Char :=
  match a.password with
  | some password => a.user.toList ++ ':' :: password.toList ++ ['@']
  | none => if a.user.isEmpty then [] else a.user.toList ++ ['@']

/-- The port as it is written. -/
def portPart (a : Authority) : List Char :=
  match a.port with
  | some number => ':' :: Decimal.ofNat number
  | none => []

/-- An authority behind its two slashes. -/
def body (a : Authority) : List Char :=
  a.userPart ++ (a.host.write ++ a.portPart)

theorem write_eq (a : Authority) : a.write = '/' :: '/' :: a.body := by
  have hwrite : a.write = ['/', '/'] ++ a.userPart ++ a.host.write ++ a.portPart := rfl
  rw [hwrite, body, List.append_assoc, List.append_assoc]
  rfl

end Authority

namespace Url

theorem splitLast?_append {mark : Char} {after : List Char} (h : mark ∉ after)
    (before : List Char) :
    splitLast? mark (before ++ [mark] ++ after) = some (before, after) := by
  have hafter := Text.behindLast_append h (.inr ⟨before, rfl⟩)
  -- The mark is there, so what is behind it is not the whole text.
  have hshort : after.length ≠ (before ++ [mark] ++ after).length := by
    simp only [List.length_append, List.length_singleton]
    omega
  have hbefore : (before ++ [mark] ++ after).length - after.length - 1 = before.length := by
    simp only [List.length_append, List.length_singleton]
    omega
  unfold splitLast?
  simp only [hafter, if_neg hshort, hbefore]
  rw [List.append_assoc, List.take_left]

theorem splitLast?_of_not_mem {mark : Char} {cs : List Char} (h : mark ∉ cs) :
    splitLast? mark cs = none := by
  have hwhole := Text.behindLast_append h (.inl rfl)
  rw [List.nil_append] at hwhole
  unfold splitLast?
  simp only [hwhole, if_true]

/-- What is encoded in a user name has no mark that ends it. -/
theorem not_mem_of_encoded {cs : List Char} (h : Percent.Encoded Percent.inUserInfo cs)
    {mark : Char} (hmark : Percent.inUserInfo mark = true) : mark ∉ cs := fun hmem => by
  have hplain := (h mark hmem).2
  rw [hmark] at hplain
  exact nomatch hplain

theorem parseUser_nil : parseUser [] = ("", none) := rfl

theorem parseUser_of_encoded {user : List Char} (h : Percent.Encoded Percent.inUserInfo user) :
    parseUser user = (String.ofList user, none) := by
  have hcolon : ':' ∉ user := not_mem_of_encoded h (by decide)
  have htake := Text.takeWhile_append_mark hcolon (.inl rfl)
  have hdrop := Text.dropWhile_append_mark hcolon (.inl rfl)
  rw [List.append_nil] at htake hdrop
  unfold parseUser
  simp only [htake, hdrop, Percent.encode_eq_self h]
  rfl

theorem parseUser_password {user password : List Char}
    (huser : Percent.Encoded Percent.inUserInfo user)
    (hpassword : Percent.Encoded Percent.inUserInfo password) (hne : password ≠ []) :
    parseUser (user ++ ':' :: password) =
      (String.ofList user, some (String.ofList password)) := by
  have hcolon : ':' ∉ user := not_mem_of_encoded huser (by decide)
  have htake := Text.takeWhile_append_mark hcolon (.inr ⟨password, rfl⟩)
  have hdrop := Text.dropWhile_append_mark hcolon (.inr ⟨password, rfl⟩)
  have hnonempty : password.isEmpty = false := by simpa using hne
  unfold parseUser
  simp only [htake, hdrop, List.drop_succ_cons, List.drop_zero, hnonempty, Bool.false_eq_true,
    if_false, Percent.encode_eq_self huser, Percent.encode_eq_self hpassword]

/-- Without an `@` in it, a place is behind the user of an authority. -/
theorem splitUser_body {place : List Char} (hat : '@' ∉ place) (ha : a.Settled port) :
    (splitUser (a.userPart ++ place)).2 = place ∧
      parseUser ((splitUser (a.userPart ++ place)).1.getD []) = (a.user, a.password) := by
  have huser := ha.user
  have hpassword := ha.password
  unfold Authority.userPart
  -- With a password, with a user alone, and with neither.
  cases hword : a.password with
  | some password =>
      rw [hword] at hpassword
      rcases hpassword password rfl with ⟨hne, hencoded⟩
      have hsplit := splitLast?_append hat (a.user.toList ++ ':' :: password.toList)
      unfold splitUser
      simp only [hsplit, Option.getD_some, true_and]
      rw [parseUser_password huser hencoded hne, String.ofList_toList, String.ofList_toList]
  | none =>
      simp only
      split
      · next hempty =>
        have hnone := splitLast?_of_not_mem hat
        unfold splitUser
        simp only [List.nil_append, hnone, Option.getD_none, true_and, parseUser_nil]
        rw [String.isEmpty_iff.mp hempty]
      · have hsplit := splitLast?_append hat a.user.toList
        unfold splitUser
        simp only [hsplit, Option.getD_some, true_and]
        rw [parseUser_of_encoded huser, String.ofList_toList]

/-- The digits of a port are read as the port. -/
theorem parsePort_ofNat {number : Nat} (hlarge : number ≤ 65535) (hother : number ≠ port) :
    parsePort (.web port) (Decimal.ofNat number) = .ok (some number) := by
  have hnumber : Nat.ofDigitChars 10 (Decimal.ofNat number) 0 = number :=
    Nat.ofDigitChars_toDigits (by decide) (by decide)
  have hne : (Decimal.ofNat number).isEmpty = false := by
    simpa using Decimal.ofNat_ne_nil number
  -- The port is not that of the scheme, which would be left out.
  have hkind : SchemeKind.web port ≠ .web number := fun heq =>
    hother (SchemeKind.web.inj heq).symm
  unfold parsePort
  rw [if_pos (Decimal.all_isDigit_ofNat number)]
  simp only [hnumber, hne, Bool.false_eq_true, false_or, if_neg (Nat.not_lt.mpr hlarge),
    if_neg hkind]

/-- Digits are no backslash, so a port goes up to the path. -/
theorem takeWhile_ofNat (number : Nat) :
    (Decimal.ofNat number).takeWhile (· ≠ '\\') = Decimal.ofNat number :=
  List.takeWhile_eq_self_iff.mpr fun c hc =>
    forall_isDigit (fun c => decide (c ≠ '\\') = true) (by decide)
      (List.all_eq_true.mp (Decimal.all_isDigit_ofNat number) c hc)

/-- Host and port are read as they are written. -/
theorem readPlace_written (user : String × Option String) (ha : a.Settled port) :
    readPlace (.web port) user (splitPort false (a.host.write ++ a.portPart)).1
      (splitPort false (a.host.write ++ a.portPart)).2 =
        .ok (⟨user.1, user.2, a.host, a.port⟩, []) := by
  have hport := ha.port
  rw [ha.host.port]
  unfold readPlace Authority.portPart
  cases hnumber : a.port with
  | none =>
      simp only [splitPort, List.append_nil, Option.getD_none, List.takeWhile_nil,
        List.drop_nil, ha.host.reads]
      rfl
  | some number =>
      rw [hnumber] at hport
      rcases hport number rfl with ⟨hlarge, hother⟩
      simp only [splitPort, List.append_nil, Option.getD_some, takeWhile_ofNat, List.drop_length,
        ha.host.reads, parsePort_ofNat hlarge hother, Bool.not_false, and_self, if_true]
      rfl

theorem at_not_mem_place (ha : a.Settled port) : '@' ∉ a.host.write ++ a.portPart := by
  intro hmem
  rcases List.mem_append.mp hmem with hhost | hport
  · exact (ha.host.chars _ hhost).2 rfl
  · unfold Authority.portPart at hport
    split at hport
    · next number _ =>
      rcases List.mem_cons.mp hport with hcolon | hdigit
      · exact absurd hcolon (by decide)
      · exact absurd (List.all_eq_true.mp (Decimal.all_isDigit_ofNat number) _ hdigit) (by decide)
    · exact nomatch hport

/-- **An authority** is read as it is written. -/
theorem parseAuthority_body (ha : a.Settled port) (follows : Bool) :
    parseAuthority (.web port) a.body follows = .ok (a, []) := by
  rcases splitUser_body (at_not_mem_place ha) ha with ⟨hplace, huser⟩
  have hhost : (splitPort false (a.host.write ++ a.portPart)).1.isEmpty = false := by
    rw [ha.host.port]
    simp [ha.host.nonempty]
  rw [parseAuthority_eq _ rfl, Authority.body, hplace, hhost, if_neg Bool.false_ne_true, huser,
    readPlace_written _ ha]

/-- What has been read as an authority is settled. -/
theorem settled_of_parseAuthority {cs extra : List Char} {follows : Bool}
    (h : parseAuthority (.web port) cs follows = .ok (a, extra)) : a.Settled port := by
  have hforms : ∀ cs, Percent.Encoded Percent.inUserInfo (Percent.encode Percent.inUserInfo cs) :=
    Percent.encoded_encode (by decide) (by decide)
  rw [parseAuthority_eq _ rfl] at h
  split at h
  · cases h
  · -- User and password come out of the encoder, and the port has passed its check.
    rcases exists_of_bind_eq_ok h with ⟨host, hhost, hbehind⟩
    rcases exists_of_bind_eq_ok hbehind with ⟨number, hnumber, hplace⟩
    have ha := (Prod.mk.inj (Except.ok.inj hplace)).1
    rw [← ha]
    refine ⟨?_, fun password hpassword => ?_, Host.settled_of_parse hhost, fun n hn => ?_⟩
    · simp only [parseUser, String.toList_ofList]
      exact hforms _
    · simp only [parseUser] at hpassword
      split at hpassword
      · exact nomatch hpassword
      · next hne =>
        rw [← Option.mem_some.mp hpassword, String.toList_ofList]
        exact ⟨Percent.encode_ne_nil (by simpa using hne), hforms _⟩
    · simp only at hn
      rw [Option.mem_def] at hn
      rw [hn] at hnumber
      unfold parsePort at hnumber
      split at hnumber
      · simp only at hnumber
        split at hnumber
        · cases hnumber
        · next hlarge =>
          split at hnumber
          · cases hnumber
          · next hother =>
            rw [← Option.some.inj (Except.ok.inj hnumber)]
            simp only [not_or] at hother
            refine ⟨Nat.le_of_not_lt hlarge, fun heq => hother.2 ?_⟩
            rw [heq]
      · cases hnumber

theorem isPlaceChar_of_mem_body (ha : a.Settled port) {c : Char} (hc : c ∈ a.body) :
    isPlaceChar c = true := by
  -- Whatever may stand in a user or a password is one of these in ASCII.
  have hencoded : ∀ cs, Percent.Encoded Percent.inUserInfo cs → c ∈ cs → isPlaceChar c = true :=
    fun cs hcs hmem => forall_ascii (fun c => Percent.inUserInfo c = false → isPlaceChar c = true)
      (by decide) (hcs c hmem).1 (hcs c hmem).2
  have hpassword := ha.password
  unfold Authority.body at hc
  rcases List.mem_append.mp hc with huser | hplace
  · unfold Authority.userPart at huser
    split at huser
    · next password hword =>
      simp only [List.mem_append, List.mem_cons, List.not_mem_nil, or_false] at huser
      rcases huser with (hname | rfl | hsecret) | rfl
      · exact hencoded _ ha.user hname
      · decide
      · exact hencoded _ (hpassword password hword).2 hsecret
      · decide
    · split at huser
      · exact nomatch huser
      · rcases List.mem_append.mp huser with hname | hat
        · exact hencoded _ ha.user hname
        · rw [List.mem_singleton.mp hat]
          decide
  · rcases List.mem_append.mp hplace with hhost | hport
    · exact (ha.host.chars c hhost).1
    · unfold Authority.portPart at hport
      split at hport
      · next number _ =>
        rcases List.mem_cons.mp hport with rfl | hdigit
        · decide
        · exact forall_isDigit (fun c => isPlaceChar c = true) (by decide)
            (List.all_eq_true.mp (Decimal.all_isDigit_ofNat number) c hdigit)
      · exact nomatch hport

end Url

end Authorities

section Paths

variable (port : Nat)

namespace Url

/-- A segment in the form that reading gives it. -/
structure SegmentSettled (segment : List Char) : Prop where
  encoded : Percent.Encoded Percent.inPath segment
  slash : '/' ∉ segment
  backslash : '\\' ∉ segment
  dots : segment.map Char.toLower ∉ dotForms

theorem segmentSettled_nil : SegmentSettled [] :=
  ⟨fun _ hc => absurd hc List.not_mem_nil, List.not_mem_nil, List.not_mem_nil, by decide⟩

/-- A segment that is no dots is settled by its percent form. -/
theorem segmentSettled_encode {segment : List Char} (hslash : '/' ∉ segment)
    (hback : '\\' ∉ segment) (hdots : segment.map Char.toLower ∉ dotForms) :
    SegmentSettled (Percent.encode Percent.inPath segment) := by
  have hnone : ∀ mark, mark ∉ segment → mark ≠ '%' → (∀ n < 16, mark ≠ Percent.upperHex n) →
      mark ∉ Percent.encode Percent.inPath segment := by
    intro mark hmark hpercent hdigits hmem
    rcases Percent.mem_encode hmem with ⟨hin, _⟩ | heq | ⟨n, hn, heq⟩
    · exact hmark hin
    · exact hpercent heq
    · exact hdigits n hn heq
  exact ⟨Percent.encoded_encode (by decide) (by decide) segment,
    hnone '/' hslash (by decide) (by decide), hnone '\\' hback (by decide) (by decide),
    fun hmem => hdots (mem_dotForms_of_encode hmem)⟩

/-- A segment in one of the forms of dots is dots. -/
theorem isDots_of_mem_dotForms {segment : List Char} (h : segment.map Char.toLower ∈ dotForms) :
    isDoubleDot segment = true ∨ isSingleDot segment = true := by
  unfold isDoubleDot isSingleDot
  generalize segment.map Char.toLower = form at h ⊢
  have hall : ∀ form ∈ dotForms, ["..", "%2e.", ".%2e", "%2e%2e"].contains (String.ofList form) =
      true ∨ [".", "%2e"].contains (String.ofList form) = true := by decide
  exact hall form h

/-- One segment more keeps a path settled. -/
theorem addSegment_settled {before : List String} {segment : List Char} (isLast : Bool)
    (hbefore : ∀ part ∈ before, SegmentSettled part.toList) (hslash : '/' ∉ segment)
    (hback : '\\' ∉ segment) :
    ∀ part ∈ addSegment (.web port) before segment isLast, SegmentSettled part.toList := by
  have hdropped : ∀ part ∈ dropSegment (.web port) before, SegmentSettled part.toList :=
    fun part hpart => hbefore part ((dropSegment_kept port before).mem hpart)
  have hempty : ∀ part ∈ [""], SegmentSettled part.toList := fun part hpart => by
    rw [List.mem_singleton.mp hpart]
    exact segmentSettled_nil
  by_cases hdots : segment.map Char.toLower ∈ dotForms
  · unfold addSegment
    split
    · split
      · exact List.forall_mem_append.mpr ⟨hdropped, hempty⟩
      · exact hdropped
    · next hdouble =>
      have hsingle := (isDots_of_mem_dotForms hdots).resolve_left hdouble
      rw [if_pos hsingle]
      split
      · exact List.forall_mem_append.mpr ⟨hbefore, hempty⟩
      · exact hbefore
  · rw [addSegment_of_not_dots port _ _ _ hdots]
    refine List.forall_mem_append.mpr ⟨hbefore, fun part hpart => ?_⟩
    rw [List.mem_singleton.mp hpart, String.toList_ofList]
    exact segmentSettled_encode hslash hback hdots

/-- Behind the last segment a path has one at least. -/
theorem addSegment_last_ne_nil (before : List String) (segment : List Char) :
    addSegment (.web port) before segment true ≠ [] := by
  unfold addSegment
  simp only [if_true]
  repeat' split
  all_goals simp

/-- So every path that is read is settled. -/
theorem resolveSegments_settled {before : List String} {segments : List (List Char)}
    (hbefore : ∀ part ∈ before, SegmentSettled part.toList)
    (hsegments : ∀ segment ∈ segments, '/' ∉ segment ∧ '\\' ∉ segment) (hne : segments ≠ []) :
    resolveSegments (.web port) before segments ≠ [] ∧
      ∀ part ∈ resolveSegments (.web port) before segments, SegmentSettled part.toList := by
  induction segments generalizing before with
  | nil => exact absurd rfl hne
  | cons segment rest ih =>
      rw [List.forall_mem_cons] at hsegments
      rcases hsegments with ⟨⟨hslash, hback⟩, hrest⟩
      cases rest with
      | nil => exact ⟨addSegment_last_ne_nil port before segment,
          addSegment_settled port true hbefore hslash hback⟩
      | cons next tail =>
          exact ih (addSegment_settled port false hbefore hslash hback) hrest (List.cons_ne_nil _ _)

end Url

/-- A path in the form that reading gives it. -/
def UrlPath.Settled (path : UrlPath) : Prop :=
  ∃ parts, path = .segments parts ∧ parts ≠ [] ∧
    ∀ part ∈ parts, Url.SegmentSettled part.toList

namespace Url

theorem settled_parsePath (cs : List Char) : (parsePath (.web port) cs).Settled := by
  have hseparated : ∀ cs, ∀ segment ∈ splitSegments (.web port) cs,
      '/' ∉ segment ∧ '\\' ∉ segment := by
    intro cs segment hsegment
    refine ⟨fun hmem => (Text.mem_of_mem_splitOn hsegment hmem).2 rfl, fun hmem => ?_⟩
    rcases List.mem_map.mp (Text.mem_of_mem_splitOn hsegment hmem).1 with ⟨c, _, hc⟩
    split at hc
    · exact absurd hc (by decide)
    · next hplain =>
      rw [hc] at hplain
      exact hplain rfl
  unfold parsePath
  have hspecial : (SchemeKind.web port).isSpecial = true := rfl
  have hnofile : SchemeKind.web port ≠ .file := fun h => nomatch h
  simp only [hspecial, Bool.not_true, Bool.and_false, Bool.false_eq_true, if_false, if_neg hnofile]
  have hnone : ∀ part ∈ ([] : List String), SegmentSettled part.toList :=
    fun part hpart => absurd hpart List.not_mem_nil
  -- Slashes and backslashes have been taken for separators, so no segment has one.
  rcases resolveSegments_settled port hnone (hseparated _)
    (Text.splitOn_ne_nil _ _) with ⟨hne, hparts⟩
  exact ⟨_, rfl, hne, hparts⟩

/-- **A path** is read as it is written. -/
theorem parsePath_write {path : UrlPath} (h : path.Settled) :
    parsePath (.web port) path.write = path := by
  rcases h with ⟨parts, rfl, hne, hparts⟩
  have hpieces : parts.map String.toList ≠ [] := by simpa using hne
  have hflat : (parts.map String.toList).flatMap ('/' :: ·) = (UrlPath.segments parts).write := by
    rw [List.flatMap_map]
    rfl
  have hcons : ∃ tail, (UrlPath.segments parts).write = '/' :: tail := by
    rcases List.exists_cons_of_ne_nil hne with ⟨part, rest, rfl⟩
    exact ⟨_, rfl⟩
  rcases hcons with ⟨tail, htail⟩
  have hback : '\\' ∉ tail := by
    intro hmem
    have hall := List.mem_cons_of_mem '/' hmem
    rw [← htail, ← hflat] at hall
    rcases List.mem_flatMap.mp hall with ⟨piece, hpiece, hin⟩
    rcases List.mem_map.mp hpiece with ⟨part, hpart, rfl⟩
    rcases List.mem_cons.mp hin with hslash | hin
    · exact absurd hslash (by decide)
    · exact (hparts part hpart).backslash hin
  have hsplit : Text.splitOn '/' tail = parts.map String.toList := by
    refine Text.splitOn_of_flatMap hpieces (fun piece hpiece => ?_) (hflat.trans htail)
    rcases List.mem_map.mp hpiece with ⟨part, hpart, rfl⟩
    exact (hparts part hpart).slash
  have hresolved : resolveSegments (.web port) [] (parts.map String.toList) = parts := by
    rw [resolveSegments_of_kept]
    · simp [Function.comp_def]
    · intro piece hpiece before isLast
      rcases List.mem_map.mp hpiece with ⟨part, hpart, rfl⟩
      rw [addSegment_of_not_dots port _ _ _ (hparts part hpart).dots,
        Percent.encode_eq_self (hparts part hpart).encoded]
  have hslash : (SchemeKind.web port).isSlash '/' = true := rfl
  have hnofile : SchemeKind.web port ≠ .file := fun h => nomatch h
  rw [htail]
  unfold parsePath
  simp only [hslash, if_true, List.isEmpty_cons, Bool.false_and, Bool.false_eq_true, if_false,
    splitSegments_of_not_mem port hback, hsplit, hresolved, if_neg hnofile]

theorem isSlash_head?_write {path : UrlPath} (h : path.Settled) :
    ∃ tail, path.write = '/' :: tail := by
  rcases h with ⟨parts, rfl, hne, _⟩
  rcases List.exists_cons_of_ne_nil hne with ⟨part, rest, rfl⟩
  exact ⟨_, rfl⟩

/-- A path has no mark in it that ends it. -/
theorem mem_write_path {path : UrlPath} (h : path.Settled) {c : Char} (hc : c ∈ path.write) :
    isMark c = false ∧ isBlank c = false := by
  rcases h with ⟨parts, rfl, _, hparts⟩
  rcases List.mem_flatMap.mp hc with ⟨part, hpart, hin⟩
  rcases List.mem_cons.mp hin with hslash | hin
  · rw [hslash]
    decide
  · rcases (hparts part hpart).encoded c hin with ⟨hascii, hplain⟩
    exact forall_ascii (fun c => Percent.inPath c = false → isMark c = false ∧ isBlank c = false)
      (by decide) hascii hplain

end Url

end Paths

section Texts

variable {port : Nat}

namespace Url

/-- A URL of the web in the form that reading gives it. -/
structure Settled (port : Nat) (u : Url) : Prop where
  scheme : SchemeKind.ofScheme u.scheme = .web port
  authority : ∃ a, u.authority = some a ∧ a.Settled port
  path : u.path.Settled
  query : ∀ query ∈ u.query, Percent.Encoded Percent.inSpecialQuery query.toList
  fragment : ∀ fragment ∈ u.fragment, Percent.Encoded Percent.inFragment fragment.toList

/-- The schemes of the web. -/
theorem mem_of_ofScheme {scheme : String} (h : SchemeKind.ofScheme scheme = .web port) :
    scheme ∈ ["http", "ws", "https", "wss", "ftp"] := by
  unfold SchemeKind.ofScheme at h
  split at h
  · next hscheme => rcases hscheme with rfl | rfl <;> decide
  · split at h
    · next hscheme => rcases hscheme with rfl | rfl <;> decide
    · split at h
      · next hscheme =>
        rw [hscheme]
        decide
      · split at h <;> cases h

/-- A scheme of the web is cut off as it is written. -/
theorem splitScheme?_written {scheme : String} (h : SchemeKind.ofScheme scheme = .web port)
    (rest : List Char) : splitScheme? (scheme.toList ++ ':' :: rest) = some (scheme, rest) := by
  -- The five schemes are taken apart by hand.
  have hall : ∀ scheme ∈ ["http", "ws", "https", "wss", "ftp"], ∃ first name,
      scheme.toList = first :: name ∧ (first :: name).all inScheme = true ∧
        first.isAlpha = true ∧ scheme = String.ofList ((first :: name).map Char.toLower) := by
    simp only [List.forall_mem_cons, List.not_mem_nil, false_implies, implies_true, and_true]
    exact ⟨⟨'h', ['t', 't', 'p'], by decide⟩, ⟨'w', ['s'], by decide⟩,
      ⟨'h', ['t', 't', 'p', 's'], by decide⟩, ⟨'w', ['s', 's'], by decide⟩,
      ⟨'f', ['t', 'p'], by decide⟩⟩
  rcases hall scheme (mem_of_ofScheme h) with ⟨first, name, hchars, hname, halpha, hlower⟩
  exact splitScheme?_eq_some_iff.mpr
    ⟨first, name, by rw [hchars], List.all_eq_true.mp hname, halpha, hlower⟩

/-- The fragment with its mark. -/
def fragmentPart (u : Url) : List Char :=
  match u.fragment with
  | some fragment => '#' :: fragment.toList
  | none => []

theorem toList_text (u : Url) : u.text.toList =
    u.scheme.toList ++ ':' :: (u.writePlace ++ (u.writeQuery ++ u.fragmentPart)) := by
  have htext : u.text = String.ofList
      (u.scheme.toList ++ ':' :: u.writePlace ++ u.writeQuery ++ u.fragmentPart) := rfl
  rw [htext, String.toList_ofList]
  simp only [List.append_assoc, List.cons_append]

theorem writeQuery_start (u : Url) :
    u.writeQuery = [] ∨ ∃ rest, u.writeQuery = '?' :: rest := by
  unfold writeQuery
  split
  · exact .inr ⟨_, rfl⟩
  · exact .inl rfl

theorem fragmentPart_start (u : Url) :
    u.fragmentPart = [] ∨ ∃ rest, u.fragmentPart = '#' :: rest := by
  unfold fragmentPart
  split
  · exact .inr ⟨_, rfl⟩
  · exact .inl rfl

theorem hash_not_mem_writeQuery {u : Url} (h : u.Settled port) : '#' ∉ u.writeQuery := by
  intro hmem
  unfold writeQuery at hmem
  split at hmem
  · next query hquery =>
    rcases List.mem_cons.mp hmem with hmark | hin
    · exact absurd hmark (by decide)
    · exact absurd (h.query query hquery _ hin).2 (by decide)
  · exact nomatch hmem

/-- A query is read as it is written. -/
theorem tail?_writeQuery {u : Url} (h : u.Settled port) :
    (u.writeQuery.tail?.map fun text =>
      String.ofList (Percent.encode Percent.inSpecialQuery text)) = u.query := by
  unfold writeQuery
  cases htext : u.query with
  | none => rfl
  | some query =>
      simp only [List.tail?_cons, Option.map_some,
        Percent.encode_eq_self (h.query query htext), String.ofList_toList]

/-- A fragment is read as it is written. -/
theorem tail?_fragmentPart {u : Url} (h : u.Settled port) :
    (u.fragmentPart.tail?.map fun text =>
      String.ofList (Percent.encode Percent.inFragment text)) = u.fragment := by
  unfold fragmentPart
  cases htext : u.fragment with
  | none => rfl
  | some fragment =>
      simp only [List.tail?_cons, Option.map_some,
        Percent.encode_eq_self (h.fragment fragment htext), String.ofList_toList]

/-- **Query and fragment** are cut off at their marks. -/
theorem splitTail_written {u : Url} (h : u.Settled port) {place : List Char}
    (hplace : ∀ c ∈ place, isMark c = false) :
    splitTail (.web port) (place ++ (u.writeQuery ++ u.fragmentPart)) =
      (place, u.query, u.fragment) := by
  have hhash : '#' ∉ place ++ u.writeQuery :=
    List.not_mem_append (fun hmem => absurd (hplace _ hmem) (by decide))
      (hash_not_mem_writeQuery h)
  have hquestion : '?' ∉ place := fun hmem => absurd (hplace _ hmem) (by decide)
  -- A question mark in the fragment is behind the first `#`, so the fragment goes first.
  have hbeforeFragment := Text.takeWhile_append_mark hhash u.fragmentPart_start
  have hbeforeQuery := Text.takeWhile_append_mark hquestion u.writeQuery_start
  have hspecial : (SchemeKind.web port).isSpecial = true := rfl
  rw [← List.append_assoc]
  unfold splitTail
  simp only [hbeforeFragment, hbeforeQuery, List.drop_left, hspecial, if_true, tail?_writeQuery h,
    tail?_fragmentPart h]

/-- A text without blanks counts as a whole. -/
theorem strip_eq_self {cs : List Char} (h : ∀ c ∈ cs, isBlank c = false) : strip cs = cs := by
  have hfront : cs.dropWhile isBlank = cs := by
    cases cs with
    | nil => rfl
    | cons c rest => rw [List.dropWhile_cons_of_neg (by simp [h c List.mem_cons_self])]
  have hback : cs.rdropWhile isBlank = cs :=
    List.rdropWhile_eq_self_iff.mpr fun hl => by simp [h _ (List.getLast_mem hl)]
  -- Line breaks and tabs are blanks, so none of them is left out.
  have hkept : cs.filter isKept = cs :=
    List.filter_eq_self.mpr fun c hc => isKept_of_not_isBlank (h c hc)
  rw [strip_eq, hfront, hback, hkept]

/-- Authority and path of a settled URL are found again between the slashes. -/
theorem parts_written {a : Authority} {path : UrlPath} (ha : a.Settled port)
    (hpath : path.Settled) :
    hostPart (.web port) (a.write ++ path.write) = a.body ∧
      wayPart (.web port) (a.write ++ path.write) = path.write := by
  have hslash : (SchemeKind.web port).isSlash '/' = true := rfl
  -- No character of an authority is a slash of either kind.
  have hplain : ∀ c ∈ a.body, (SchemeKind.web port).isSlash c = false := by
    intro c hc
    have hchar := isPlaceChar_of_mem_body ha hc
    simp only [isPlaceChar, Bool.and_eq_true, decide_eq_true_eq] at hchar
    simp [SchemeKind.isSlash, hchar.1.1.1.2, hchar.1.1.2]
  -- The two slashes in front are dropped, and the authority ends that.
  have hfront : (a.write ++ path.write).dropWhile (SchemeKind.web port).isSlash =
      a.body ++ path.write := by
    have hne : a.body ≠ [] := by simp [Authority.body, ha.host.nonempty]
    rcases List.exists_cons_of_ne_nil hne with ⟨c, rest, hcons⟩
    have hc := hplain c (by rw [hcons]; exact List.mem_cons_self)
    rw [Authority.write_eq, List.cons_append, List.cons_append,
      List.dropWhile_cons_of_pos hslash, List.dropWhile_cons_of_pos hslash, hcons,
      List.cons_append, List.dropWhile_cons_of_neg (by simp [hc])]
  have hall : ∀ c ∈ a.body, (!(SchemeKind.web port).isSlash c) = true := fun c hc => by
    rw [hplain c hc]
    rfl
  rcases isSlash_head?_write hpath with ⟨tail, htail⟩
  rw [hostPart, wayPart, hfront, htail]
  constructor
  · rw [List.takeWhile_append_of_pos hall, List.takeWhile_cons_of_neg (by simp [hslash]),
      List.append_nil]
  · rw [List.dropWhile_append_of_pos hall, List.dropWhile_cons_of_neg (by simp [hslash])]

theorem writePlace_eq {u : Url} {a : Authority} (ha : u.authority = some a) :
    u.writePlace = a.write ++ u.path.write := by
  unfold writePlace
  rw [ha]

/-- Nothing in front of the query is a mark or a blank. -/
theorem mem_writePlace {u : Url} (h : u.Settled port) {c : Char} (hc : c ∈ u.writePlace) :
    isMark c = false ∧ isBlank c = false := by
  rcases h.authority with ⟨a, hauthority, ha⟩
  rw [writePlace_eq hauthority, Authority.write_eq] at hc
  rcases List.mem_append.mp hc with hfront | hway
  · rcases List.mem_cons.mp hfront with rfl | hfront
    · decide
    · rcases List.mem_cons.mp hfront with rfl | hbody
      · decide
      · have hchar := isPlaceChar_of_mem_body ha hbody
        simp only [isPlaceChar, Bool.and_eq_true, decide_eq_true_eq, Bool.not_eq_true'] at hchar
        exact ⟨by simp [isMark, hchar.1.2, hchar.2], hchar.1.1.1.1⟩
  · exact mem_write_path h.path hway

/-- There is no blank in the query or in the fragment. -/
theorem isBlank_of_mem_tail {u : Url} (h : u.Settled port) {c : Char}
    (hc : c ∈ u.writeQuery ++ u.fragmentPart) : isBlank c = false := by
  rcases List.mem_append.mp hc with hquery | hfragment
  · unfold writeQuery at hquery
    split at hquery
    · next query hsome =>
      rcases List.mem_cons.mp hquery with rfl | hin
      · decide
      · rcases h.query query hsome c hin with ⟨hascii, hplain⟩
        exact forall_ascii (fun c => Percent.inSpecialQuery c = false → isBlank c = false)
          (by decide) hascii hplain
    · exact nomatch hquery
  · unfold fragmentPart at hfragment
    split at hfragment
    · next fragment hsome =>
      rcases List.mem_cons.mp hfragment with rfl | hin
      · decide
      · rcases h.fragment fragment hsome c hin with ⟨hascii, hplain⟩
        exact forall_ascii (fun c => Percent.inFragment c = false → isBlank c = false)
          (by decide) hascii hplain
    · exact nomatch hfragment

/-- There is no blank in the whole text. -/
theorem isBlank_of_mem_text {u : Url} (h : u.Settled port) {c : Char} (hc : c ∈ u.text.toList) :
    isBlank c = false := by
  have hall : ∀ scheme ∈ ["http", "ws", "https", "wss", "ftp"],
      scheme.toList.all (!isBlank ·) = true := by decide
  rw [toList_text, List.mem_append, List.mem_cons, List.mem_append] at hc
  rcases hc with hscheme | rfl | hfront | hback
  · simpa using List.all_eq_true.mp (hall _ (mem_of_ofScheme h.scheme)) c hscheme
  · decide
  · exact (mem_writePlace h hfront).2
  · exact isBlank_of_mem_tail h hback

/-- **A URL of the web** is read as it is written. -/
theorem parse_text {u : Url} (h : u.Settled port) : parse u.text = .ok u := by
  rcases h.authority with ⟨a, hauthority, ha⟩
  -- The text is cut at the colon, at the marks, and at the slashes, and each part is read.
  have hscheme : splitScheme? (strip u.text.toList) =
      some (u.scheme, u.writePlace ++ (u.writeQuery ++ u.fragmentPart)) := by
    rw [strip_eq_self fun c hc => isBlank_of_mem_text h hc, toList_text,
      splitScheme?_written h.scheme]
  have htail := splitTail_written h fun c hc => (mem_writePlace h hc).1
  rcases parts_written ha h.path with ⟨hhost, hway⟩
  rw [← writePlace_eq hauthority] at hhost hway
  rw [parse_web port hscheme h.scheme]
  simp only [htail, hhost, hway, parseAuthority_body ha, Except.map, List.nil_append,
    parsePath_write port h.path]
  rw [← hauthority]

/-- **What has been read** as a URL of the web is settled. -/
theorem settled_of_parse {text : String} {u : Url} (h : parse text = .ok u)
    (hkind : SchemeKind.ofScheme u.scheme = .web port) : u.Settled port := by
  rcases splitScheme?_of_parse h with ⟨rest, hscheme⟩
  rcases parse_web_eq_ok hkind hscheme h with ⟨authority, extra, hauthority, hparts⟩
  have hquery : (splitTail (.web port) rest).2.1 = u.query := by rw [hparts]
  have hfragment : (splitTail (.web port) rest).2.2 = u.fragment := by rw [hparts]
  refine ⟨hkind, ⟨authority, by rw [hparts], settled_of_parseAuthority hauthority⟩, ?_,
    fun query hsome => ?_, fun fragment hsome => ?_⟩
  · rw [hparts]
    exact settled_parsePath port _
  · -- What is kept of a query is its percent form, and so it is with the fragment.
    rw [← hquery] at hsome
    rcases Option.map_eq_some_iff.mp hsome with ⟨text, _, htext⟩
    rw [← htext, String.toList_ofList]
    exact Percent.encoded_encode (by decide) (by decide) text
  · rw [← hfragment] at hsome
    rcases Option.map_eq_some_iff.mp hsome with ⟨text, _, htext⟩
    rw [← htext, String.toList_ofList]
    exact Percent.encoded_encode (by decide) (by decide) text

end Url

end Texts

end TestbedReport
