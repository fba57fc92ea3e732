import TestbedReport.Proofs.Settings.Placeholder
import TestbedReport.Proofs.Toml.Kept
import TestbedReport.Proofs.Toml.Lines
import TestbedReport.Proofs.Toml.Text
import TestbedReport.Settings.File

/-!
# A Key from the Environment

A settings file need not hold the key of the server. It can name a variable of the
environment between the quotes where the key would stand, and the value of the
variable is meant to be the key.

Placeholders are filled before the file is read, so the value becomes part of the
file and is read by its rules. A value that needs no escape is read as it is. With
any other the key that is read is not the value: a backslash begins an escape, a
line break is refused, and a quote ends the key, behind which the value can go on
with settings of its own.

That no such value comes out right is shown without going through what it can do.
The first text under `key` is read from the value and is not the value
(`Toml.text?_eq_self_iff`), and no line that follows, be it from the value or not,
can put another one in its place (`Toml.lines?_keeps`).

## Main definitions

* `FileSettings.keyFile`: A file that takes the key from a variable.
* `FileSettings.keyOnly`: A file that says nothing but the key.

## Theorems

* `FileSettings.parse?_filled`: How a file with a value in it is read.
* `FileSettings.key_of_textAt`: The key is the text that the document has for it.
* `FileSettings.read_keyFile_iff`: Which values become the key.
-/

namespace TestbedReport

namespace FileSettings

/-- A file that takes the key from a variable and says nothing else. -/
def keyFile (name : String) : String :=
  "[api]\nkey = \"" ++ Placeholder.inBraces name ++ "\"\n"

/-- Settings of which only the key is there. -/
def keyOnly (key : String) : FileSettings :=
  { empty with key := some key }

/-- The file with the value in it, as characters. -/
def filledFile (value : List Char) : List Char :=
  '[' :: (['a', 'p', 'i'] ++ ']' :: '\n' ::
    (['k', 'e', 'y'] ++ ' ' :: '=' :: ' ' :: '"' :: (value ++ ['"', '\n'])))

/-- The tables that the first two lines of the file build, given the text they have. -/
def keyTables (key : String) : Toml.Members :=
  [("api", .table .header [("key", .text key)])]

/-- The value of the variable stands in the file as if it had been written there. -/
theorem toList_fill_keyFile {environment : Environment} {name value : String} (hname : name ≠ "")
    (hclosed : '\x7d' ∉ name.toList) (hset : environment name = some value) :
    (Placeholder.fill environment (keyFile name)).toList = filledFile value.toList := by
  have hbefore : Placeholder.NoneBegins "[api]\nkey = \"".toList
      (Placeholder.inBraces name ++ "\"\n").toList :=
    Placeholder.noneBegins_of_not_mem (by decide) _
  have hbehind : Placeholder.fill environment "\"\n" = "\"\n" := rfl
  rw [keyFile, Placeholder.fill_append_inBraces environment _ name _ hbefore hname hclosed, hset,
    Option.getD_some, hbehind, String.toList_append, String.toList_append, List.append_assoc]
  rfl

/-- How the file is read: the text behind the first quote becomes the key, and any lines
    that are left follow. -/
theorem parse?_filled (value : List Char) :
    ∃ bound, Toml.parse? (String.ofList (filledFile value)) =
      (Toml.text? ('"' :: (value ++ ['"', '\n']))).bind fun read =>
        (Toml.endLine? read.2).bind fun rest =>
          Toml.lines? (bound + 1) ["api"] (keyTables read.1) rest := by
  -- There are more characters than the two lines that are read here, so some bound is left.
  have hlength : ∃ bound, (filledFile value).length + 1 = bound + 1 + 1 + 1 := by
    refine ⟨value.length + 13, ?_⟩
    simp only [filledFile, List.length_cons, List.length_append, List.length_nil]
    omega
  rcases hlength with ⟨bound, hbound⟩
  have hmark : Toml.withoutMark (filledFile value) = filledFile value := rfl
  refine ⟨bound, ?_⟩
  rw [Toml.parse?, String.toList_ofList, hmark, hbound, filledFile,
    Toml.lines?_header (List.cons_ne_nil 'a' _) (List.all_eq_true.mp rfl) rfl,
    Toml.lines?_assignment (List.cons_ne_nil 'k' _) (List.all_eq_true.mp rfl)]
  rfl

/-- The key is the text that the document has for it. -/
theorem key_of_textAt {text : String} {root : Toml.Members}
    (htext : Toml.TextAt text ["api", "key"] root) {settings : FileSettings}
    (h : ofToml? root = some settings) : settings.key = some text := by
  rcases htext with ⟨inner, hinner, hkey⟩
  rw [Toml.TextAt] at hkey
  have hvalues : valuesOf? ["base_url", "key", "timeout_seconds"] (root.lookup "api") =
      some [inner.lookup "base_url", some (.text text), inner.lookup "timeout_seconds"] := by
    rw [hinner, ← hkey]
    rfl
  rw [ofToml?, hvalues] at h
  rcases Option.bind_eq_some_iff.mp h with ⟨api, hapi, h⟩
  rcases Option.bind_eq_some_iff.mp h with ⟨output, _, h⟩
  rw [Option.some.injEq] at hapi
  -- All three fields of the table are read, and the key is the second.
  split at h
  · next baseUrl key timeoutSeconds directory =>
    rw [List.cons.injEq, List.cons.injEq] at hapi
    simp only [Option.bind_eq_bind, Option.bind_eq_some_iff] at h
    rcases h with ⟨_, _, read, hread, _, _, _, _, h⟩
    rw [Option.pure_def, Option.some.injEq] at h
    rw [← hapi.2.1, textOf?, Option.some.injEq] at hread
    rw [← h, hread]
  · exact absurd h.symm (Option.some_ne_none settings)

/-- **A value becomes the key if and only if it needs no escape between double quotes.**
    The file then says nothing else. With any other value the file is refused, or the
    key is not the value. -/
theorem read_keyFile_iff {environment : Environment} {name value : String} (hname : name ≠ "")
    (hclosed : '\x7d' ∉ name.toList) (hset : environment name = some value) :
    (read environment (keyFile name) = .ok (keyOnly value) ↔ Toml.Verbatim value.toList) ∧
      (¬Toml.Verbatim value.toList → ∀ settings, read environment (keyFile name) = .ok settings →
        settings.key ≠ some value) := by
  have htext := toList_fill_keyFile hname hclosed hset
  rw [← String.toList_ofList (l := filledFile value.toList), String.toList_inj] at htext
  rcases parse?_filled value.toList with ⟨bound, hparse⟩
  have hexact : Toml.Verbatim value.toList →
      read environment (keyFile name) = .ok (keyOnly value) := by
    intro h
    have hquoted := (Toml.text?_eq_self_iff value.toList _).mpr ⟨h, rfl⟩
    have hend : Toml.endLine? ['\n'] = some [] := rfl
    have hlines : Toml.lines? (bound + 1) ["api"] (keyTables value) [] =
        some (keyTables value) := rfl
    have hsettings : ofToml? (keyTables value) = some (keyOnly value) := rfl
    rw [read, htext, hparse, hquoted]
    simp only [Option.bind_some, hend, String.ofList_toList, hlines, hsettings]
  have hother : ∀ settings, read environment (keyFile name) = .ok settings →
      settings.key = some value → Toml.Verbatim value.toList := by
    intro settings h hkey
    rw [read, htext, hparse] at h
    split at h
    · next read hread =>
      rw [Except.ok.injEq] at h
      rw [h] at hread
      rcases Option.bind_eq_some_iff.mp hread with ⟨root, hroot, hsettings⟩
      rcases Option.bind_eq_some_iff.mp hroot with ⟨⟨text, behind⟩, hquoted, hlines⟩
      rcases Option.bind_eq_some_iff.mp hlines with ⟨rest, _, hlines⟩
      -- Whatever the lines behind it are, the first text is the key.
      have hfirst : Toml.TextAt text ["api", "key"] (keyTables text) :=
        ⟨[("key", .text text)], rfl, rfl⟩
      have hread := key_of_textAt (Toml.lines?_keeps hlines hfirst) hsettings
      rw [hread, Option.some.injEq] at hkey
      have hwhole : Toml.text? ('"' :: (value.toList ++ ['"', '\n'])) =
          some (String.ofList value.toList, behind) := by
        rw [String.ofList_toList, ← hkey]
        exact hkey ▸ hquoted
      exact ((Toml.text?_eq_self_iff value.toList behind).mp hwhole).1
    · exact nomatch h
  refine ⟨⟨fun h => hother _ h rfl, hexact⟩, fun hescape settings h hkey => ?_⟩
  exact hescape (hother settings h hkey)

/-- A key with blanks, single quotes and a placeholder in it, and one with a double
    quote. -/
theorem read_keyFile_iff_odd :
    let environment : Environment := fun name =>
      if name = "PLAIN" then some "a 'b' $\x7bPLAIN\x7d\t" else some "a\"b"
    read environment (keyFile "PLAIN") = .ok (keyOnly "a 'b' $\x7bPLAIN\x7d\t") ∧
      ∀ settings, read environment (keyFile "QUOTED") = .ok settings →
        settings.key ≠ some "a\"b" := by
  intro environment
  have hplain : environment "PLAIN" = some "a 'b' $\x7bPLAIN\x7d\t" := rfl
  have hquoted : environment "QUOTED" = some "a\"b" := rfl
  exact ⟨(read_keyFile_iff (by decide) (by decide) hplain).1.mpr (by decide),
    (read_keyFile_iff (by decide) (by decide) hquoted).2 (by decide)⟩

/-- A value with a quote and a line break in it ends the key and sends the requests to
    a server of its own. -/
theorem not_keyOnly_secondSetting :
    let environment : Environment := fun _ => some "k\"\nbase_url = \"http://h"
    read environment (keyFile "DCUBE_API_KEY") = .ok ⟨some "http://h", some "k", none, none⟩ ∧
      read environment (keyFile "DCUBE_API_KEY") ≠
        .ok (keyOnly "k\"\nbase_url = \"http://h") := by
  -- The settings are compared as options, because failures are not of interest.
  have hsettings : (read (fun _ => some "k\"\nbase_url = \"http://h")
      (keyFile "DCUBE_API_KEY")).toOption = some ⟨some "http://h", some "k", none, none⟩ := by
    decide +kernel
  intro environment
  have hread : read environment (keyFile "DCUBE_API_KEY") =
      .ok ⟨some "http://h", some "k", none, none⟩ := by
    cases hresult : read environment (keyFile "DCUBE_API_KEY") with
    | error cause =>
        rw [hresult] at hsettings
        exact nomatch hsettings
    | ok settings =>
        rw [hresult] at hsettings
        exact congrArg Except.ok (Option.some.inj hsettings)
  refine ⟨hread, fun h => ?_⟩
  rw [hread, Except.ok.injEq] at h
  exact absurd (congrArg FileSettings.baseUrl h) (by decide)

end FileSettings

end TestbedReport
