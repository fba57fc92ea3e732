import TestbedReport.Files.Memory
import TestbedReport.Program
import TestbedReport.Proofs.Session.Stored
import TestbedReport.Proofs.Settings.Checks

/-!
# Where Settings Come From

A setting has up to five sources, one above the other: the command line behind the
command and in front of it, a variable of the environment, the settings file, and a
value that holds without all of them. Only the first source that gives a value
counts. What is below it is not looked at, not even if the value is empty or wrong,
because then the value is refused and the run ends.

`Sources` has them all in their order for a run. What a run has to come to is said in
terms of it: `Accepted` are the settings that it finds, and `violations` are the six
conditions in the order in which they are looked at, each with the failures that name
its field. The run finds the settings exactly if they are accepted, and otherwise it
fails with the first condition that is violated (`loadSettings_exact`).

## Main definitions

* `Gives`: The value of the first source that gives one.
* `Sources`: The sources of the settings of a run.
* `Sources.Accepted`: The settings that a run finds.
* `Sources.violations`: The conditions in their order.
* `Sources.find`: Settings from their sources.
* `Arguments.GivenBy`: What is given on the two levels of a command line.
* `Program.settingsFile`: What the settings file of a run says.

## Theorems

* `Sources.find_eq_ok_iff`: Which settings are found.
* `Sources.find_eq_error_iff`: How settings are refused.
* `Arguments.exists_of_read`: A command line is what is given on its levels.
* `Settings.resolve_eq_find`: The settings of a run are found in its sources.
* `Program.run_loadSettings`: A run up to its settings.
* `Program.loadSettings_exact`: The settings of a run from its command line.
-/

namespace TestbedReport

/-- The value of the first source that gives one. The sources above it give nothing, and
    those below it can give whatever they like. -/
def Gives (sources : List (Option String)) (value : String) : Prop :=
  ∃ above below, sources = above ++ some value :: below ∧ ∀ source ∈ above, source = none

/-- Looking for the first value finds the value of the first source that gives one. -/
theorem gives_iff (sources : List (Option String)) (value : String) :
    Gives sources value ↔ sources.findSome? id = some value := by
  rw [List.findSome?_eq_some_iff]
  constructor
  · rintro ⟨above, below, hsources, hnone⟩
    exact ⟨above, some value, below, hsources, rfl, hnone⟩
  · rintro ⟨above, source, below, hsources, hvalue, hnone⟩
    rw [id] at hvalue
    exact ⟨above, below, hvalue ▸ hsources, hnone⟩

/-- Sources give one value at most, so what is said of the value that they give is said
    of any that they give. -/
theorem exists_gives_and_iff {sources : List (Option String)} {value : String}
    (h : Gives sources value) (p : String → Prop) :
    (∃ other, Gives sources other ∧ p other) ↔ p value := by
  simp only [gives_iff] at h ⊢
  simp only [h, Option.some.injEq, exists_eq_left']

/-- The sources of the settings of a run, in the order in which they are asked. -/
structure Sources where
  baseUrl : List (Option String)
  key : List (Option String)
  outputPath : List (Option String)
  timeoutSeconds : Option UInt64

namespace Sources

/-- The sources of a run: what was given behind its command and in front of it, the
    variables of its environment, and what its settings file says. -/
def ofRun (environment : Environment) (front behind : Given) (file : FileSettings) : Sources where
  baseUrl := [behind.text? "base-url", front.text? "base-url", environment "DCUBE_BASE_URL",
    file.baseUrl]
  key := [behind.text? "api-key", front.text? "api-key", environment "DCUBE_API_KEY", file.key]
  outputPath := [behind.text? "output-dir", front.text? "output-dir", file.directory, some "."]
  timeoutSeconds := file.timeoutSeconds

/-- The settings that a run finds. They hold what the sources give, and what they hold
    is of use. -/
structure Accepted (sources : Sources) (settings : Settings) : Prop where
  baseUrl : Gives sources.baseUrl settings.baseUrl
  key : Gives sources.key settings.key
  outputPath : Gives sources.outputPath settings.outputPath
  timeoutSeconds : settings.timeoutSeconds = sources.timeoutSeconds
  reachable : Check.Reachable settings.baseUrl
  visible : ∃ c ∈ settings.key.toList, Text.isBlank c = false
  usable : settings.outputPath ≠ "" ∧ '\x00' ∉ settings.outputPath.toList
  patient : ∀ seconds, settings.timeoutSeconds = some seconds → 1 ≤ seconds

/-- The conditions in their order, each by the failures that it is violated with. What
    is missed without a default comes first. -/
def violations (sources : Sources) : List (Failure → Prop) :=
  [fun cause => (∀ source ∈ sources.baseUrl, source = none) ∧
      cause = .missingSetting "api.base_url",
    fun cause => (∀ source ∈ sources.key, source = none) ∧ cause = .missingSetting "api.key",
    fun cause => ∃ url, Gives sources.baseUrl url ∧ ∃ reason, Check.UrlFlaw url reason ∧
      cause = .invalidSetting "api.base_url" url reason,
    fun cause => ∃ key, Gives sources.key key ∧ (∀ c ∈ key.toList, Text.isBlank c = true) ∧
      cause = .invalidSetting "api.key" key "Value cannot be empty or whitespace-only",
    fun cause => ∃ path, Gives sources.outputPath path ∧ ∃ reason, Check.PathFlaw path reason ∧
      cause = .invalidSetting "output.directory" path reason,
    fun cause => sources.timeoutSeconds = some 0 ∧
      cause = .invalidSetting "api.timeout_seconds" "0" "Value must be at least 1"]

/-- Settings from their sources: the first values that there are, and then the checks. -/
def find (sources : Sources) : Except Failure Settings := do
  let baseUrl ← Check.present "api.base_url" (sources.baseUrl.findSome? id)
  let key ← Check.present "api.key" (sources.key.findSome? id)
  let outputPath := (sources.outputPath.findSome? id).getD "."
  let settings : Settings := ⟨baseUrl, key, outputPath, sources.timeoutSeconds⟩
  settings.check
  return settings

/-- There is a default below all other sources of the output path. -/
theorem exists_gives_outputPath (environment : Environment) (front behind : Given)
    (file : FileSettings) :
    ∃ path, Gives (ofRun environment front behind file).outputPath path := by
  cases hfound : (ofRun environment front behind file).outputPath.findSome? id with
  | none =>
      have hdefault : some "." ∈ (ofRun environment front behind file).outputPath :=
        List.mem_of_getLast? rfl
      exact nomatch List.findSome?_eq_none_iff.mp hfound _ hdefault
  | some path => exact ⟨path, (gives_iff _ path).mpr hfound⟩

/-- A value is missed if no source gives one. -/
theorem present_eq_error_iff (field : String) (sources : List (Option String)) (cause : Failure) :
    Check.present field (sources.findSome? id) = .error cause ↔
      (∀ source ∈ sources, source = none) ∧ cause = .missingSetting field := by
  rw [Check.present_eq_error_iff, List.findSome?_eq_none_iff]
  rfl

/-- A value that is there is the one that the sources give. -/
theorem present_eq_ok_iff (field : String) (sources : List (Option String)) (value : String) :
    Check.present field (sources.findSome? id) = .ok value ↔ Gives sources value := by
  rw [Check.present_eq_ok_iff, gives_iff]

/-- How settings are refused that hold what the sources give. -/
theorem check_eq_error_iff {sources : Sources} {settings : Settings}
    (hbaseUrl : Gives sources.baseUrl settings.baseUrl) (hkey : Gives sources.key settings.key)
    (houtput : Gives sources.outputPath settings.outputPath)
    (htimeout : settings.timeoutSeconds = sources.timeoutSeconds) (cause : Failure) :
    settings.check = .error cause ↔ Check.FirstOf (sources.violations.drop 2) cause := by
  rw [Settings.check]
  -- Condition by condition in the order of the checks, the last of which has none behind it.
  refine Check.bind_eq_error_iff (fun cause => ?_) (fun _ _ => ?_) cause
  · rw [exists_gives_and_iff hbaseUrl]
    exact Check.url_eq_error_iff _ _ _
  refine Check.bind_eq_error_iff (fun cause => ?_) (fun _ _ => ?_)
  · rw [exists_gives_and_iff hkey]
    exact Check.notBlank_eq_error_iff _ _ _
  refine Check.bind_eq_error_iff (fun cause => ?_) (fun _ _ cause => ?_)
  · rw [exists_gives_and_iff houtput]
    exact Check.path_eq_error_iff _ _ _
  rw [Check.firstOf_singleton, ← htimeout]
  cases settings.timeoutSeconds with
  | none => exact iff_of_false nofun fun h => nomatch h.1
  | some seconds =>
      have hleast : seconds < 1 ↔ some seconds = some 0 := by
        rw [UInt64.lt_iff_toNat_lt, Option.some.injEq, ← UInt64.toNat_inj]
        exact Nat.lt_one_iff
      refine (Check.atLeast_eq_error_iff _ 1 seconds cause).trans ?_
      rw [hleast]
      refine and_congr_right fun hzero => ?_
      rw [Option.some.inj hzero]
      exact Iff.rfl

/-- Settings are refused for the first condition that is violated. -/
theorem find_eq_error_iff {sources : Sources} (houtput : ∃ path, Gives sources.outputPath path)
    (cause : Failure) :
    sources.find = .error cause ↔ Check.FirstOf sources.violations cause := by
  rw [find]
  refine Check.bind_eq_error_iff (present_eq_error_iff _ _) (fun baseUrl hbaseUrl => ?_) cause
  refine Check.bind_eq_error_iff (present_eq_error_iff _ _) (fun key hkey cause => ?_)
  -- The third source always gives a path, so only its check is left.
  rcases houtput with ⟨path, hpath⟩
  have hfound : sources.outputPath.findSome? id = some path := (gives_iff _ path).mp hpath
  rw [hfound, Option.getD_some, Check.bind_pure_eq_error_iff]
  exact check_eq_error_iff ((present_eq_ok_iff _ _ baseUrl).mp hbaseUrl)
    ((present_eq_ok_iff _ _ key).mp hkey) hpath rfl cause

/-- Settings pass the checks if all that they hold is of use. -/
theorem check_eq_ok_iff (settings : Settings) :
    settings.check = .ok () ↔
      Check.Reachable settings.baseUrl ∧ (∃ c ∈ settings.key.toList, Text.isBlank c = false) ∧
        (settings.outputPath ≠ "" ∧ '\x00' ∉ settings.outputPath.toList) ∧
          ∀ seconds, settings.timeoutSeconds = some seconds → 1 ≤ seconds := by
  rw [Settings.check, Check.bind_eq_ok_iff, Check.bind_eq_ok_iff, Check.bind_eq_ok_iff,
    Check.url_eq_ok_iff, Check.notBlank_eq_ok_iff, Check.path_eq_ok_iff]
  refine and_congr_right fun _ => and_congr_right fun _ => and_congr_right fun _ => ?_
  cases settings.timeoutSeconds with
  | none => exact iff_of_true rfl fun _ h => nomatch h
  | some seconds =>
      simp only [Check.atLeast_eq_ok_iff, Option.some.injEq, forall_eq']

/-- Settings are found exactly if they are accepted. -/
theorem find_eq_ok_iff {sources : Sources} (houtput : ∃ path, Gives sources.outputPath path)
    (settings : Settings) : sources.find = .ok settings ↔ sources.Accepted settings := by
  rcases houtput with ⟨path, hpath⟩
  have hfound : sources.outputPath.findSome? id = some path := (gives_iff _ path).mp hpath
  constructor
  · intro h
    rcases exists_of_bind_eq_ok h with ⟨baseUrl, hbaseUrl, h⟩
    rcases exists_of_bind_eq_ok h with ⟨key, hkey, h⟩
    rw [hfound, Option.getD_some] at h
    rcases Check.bind_eq_ok_iff.mp h with ⟨hcheck, hsettings⟩
    -- Each of the four checks is one of the conditions.
    rcases (check_eq_ok_iff _).mp hcheck with ⟨hreachable, hvisible, husable, hpatient⟩
    rw [← Except.ok.inj hsettings]
    exact ⟨(present_eq_ok_iff _ _ baseUrl).mp hbaseUrl, (present_eq_ok_iff _ _ key).mp hkey, hpath,
      rfl, hreachable, hvisible, husable, hpatient⟩
  · intro h
    have hbaseUrl := (present_eq_ok_iff "api.base_url" _ _).mpr h.baseUrl
    have hkey := (present_eq_ok_iff "api.key" _ _).mpr h.key
    have hpath := (gives_iff _ _).mp h.outputPath
    have hcheck := (check_eq_ok_iff settings).mpr ⟨h.reachable, h.visible, h.usable, h.patient⟩
    rw [find, hbaseUrl, hkey, hpath, Option.getD_some, ← h.timeoutSeconds]
    exact Check.bind_eq_ok_iff.mpr ⟨hcheck, rfl⟩

end Sources

/-- What is given on the two levels of a command line that can be read: in front of the
    command and behind it. -/
inductive Arguments.GivenBy (line : List String) : Given → Given → Prop where
  | levels {name : String} {rest : List String} {word : CommandWord}
      {front frontEnd behind behindEnd : Progress} {next : Option (String × List String)}
      (hfront : firstLevel.read .start line = .ok (front, some (name, rest)))
      (hword : CommandWord.table.lookup name = some word)
      (hbehind : word.level.read .start rest = .ok (behind, next))
      (hbehindEnd : behind.settle = .ok behindEnd) (hfrontEnd : front.settle = .ok frontEnd) :
      GivenBy line frontEnd.given behindEnd.given

/-- A command line that can be read is what is given on its two levels. -/
theorem Arguments.exists_of_read {environment : Environment} {line : List String}
    {arguments : Arguments} (h : Arguments.read environment line = .ok arguments) :
    ∃ front behind, GivenBy line front behind ∧
      arguments = ofGiven environment front behind arguments.command := by
  rcases exists_of_bind_eq_ok h with ⟨⟨front, next⟩, hfront, h⟩
  cases next with
  | none =>
      rcases exists_of_bind_eq_ok h with ⟨_, _, h⟩
      exact nomatch h
  | some next =>
      rcases next with ⟨name, rest⟩
      cases hword : CommandWord.table.lookup name with
      | none =>
          simp only [hword] at h
          exact nomatch h
      | some word =>
          simp only [hword] at h
          -- The levels are read in order, and the one behind the command ends first.
          rcases exists_of_bind_eq_ok h with ⟨⟨behind, next⟩, hbehind, h⟩
          rcases exists_of_bind_eq_ok h with ⟨behindEnd, hbehindEnd, h⟩
          rcases exists_of_bind_eq_ok h with ⟨command, _, h⟩
          rcases exists_of_bind_eq_ok h with ⟨frontEnd, hfrontEnd, h⟩
          refine ⟨frontEnd.given, behindEnd.given,
            .levels hfront hword hbehind hbehindEnd hfrontEnd, ?_⟩
          rw [← Except.ok.inj h]
          rfl

namespace Settings

/-- The settings of a run are found in its sources. -/
theorem resolve_eq_find (environment : Environment) (front behind : Given) (file : FileSettings)
    (command : Command) :
    resolve (Arguments.ofGiven environment front behind command).overrides file =
      (Sources.ofRun environment front behind file).find := by
  -- Each choice between two values is one step of the search for the first.
  have hfour : ∀ a b c d : Option String,
      (((a <|> b) <|> c) <|> d) = [a, b, c, d].findSome? id := by
    rintro (_ | _) (_ | _) (_ | _) (_ | _) <;> rfl
  have hdefault : ∀ a b c : Option String,
      ((a <|> b) <|> c).getD "." = ([a, b, c, some "."].findSome? id).getD "." := by
    rintro (_ | _) (_ | _) (_ | _) <;> rfl
  have hbaseUrl : ((Arguments.ofGiven environment front behind command).overrides.baseUrl <|>
      file.baseUrl) = (Sources.ofRun environment front behind file).baseUrl.findSome? id :=
    hfour _ _ _ _
  have hkey : ((Arguments.ofGiven environment front behind command).overrides.key <|>
      file.key) = (Sources.ofRun environment front behind file).key.findSome? id :=
    hfour _ _ _ _
  have houtput : ((Arguments.ofGiven environment front behind command).overrides.outputPath <|>
      file.directory).getD defaultOutputPath =
        ((Sources.ofRun environment front behind file).outputPath.findSome? id).getD "." :=
    hdefault _ _ _
  rw [resolve, hbaseUrl, hkey, houtput]
  rfl

end Settings

namespace Program

variable {σ : Type}

/-- What the settings file of a run says. A run without one has a file that says
    nothing. -/
def settingsFile (world : Surroundings σ) (files : σ) (environment : Environment) :
    Option String → Except Failure FileSettings
  | none => .ok .empty
  | some path =>
    match world.read path files with
    | .error fault => .error (.file fault)
    | .ok bytes =>
      match Utf8.decode? bytes with
      | some text => FileSettings.read environment text
      | none => .error (.file .notUtf8)

/-- What can fail without asking anybody comes to what it is. -/
theorem run_orFail {α : Type} (world : Surroundings σ) (files : σ) (result : Except Failure α) :
    Session.run world (orFail result).run files = ⟨result.mapError .failed, [], files⟩ := by
  cases result with
  | error cause => rfl
  | ok value => rfl

/-- Reading the settings file is one question to the world. -/
theorem run_readSettingsFile (world : Surroundings σ) (files : σ) (environment : Environment)
    (path : String) :
    Session.run world (readSettingsFile environment path).run files =
      ⟨(settingsFile world files environment (some path)).mapError .failed, [], files⟩ := by
  have hcontent : Session.run world (contentOf path).run files =
      ⟨((world.read path files).mapError Failure.file).mapError .failed, [], files⟩ := by
    have hfetch : Session.run world
        (ExceptT.lift (Session.fetch path) : Attempt (Except FileFault (List UInt8))).run files =
          ⟨.ok (world.read path files), [], files⟩ := rfl
    rw [contentOf, Attempt.run_bind_eq, hfetch]
    cases world.read path files with
    | error fault => rfl
    | ok bytes => rfl
  rw [readSettingsFile, Attempt.run_bind_eq, hcontent, settingsFile]
  cases world.read path files with
  | error fault => rfl
  | ok bytes =>
      simp only [Except.mapError]
      -- What is done with the bytes asks for nothing more.
      cases Utf8.decode? bytes with
      | none => rfl
      | some text =>
          simp only [run_orFail, List.append_nil]
          rfl

/-- A run up to its settings asks for nothing but its file and sends nothing. -/
theorem run_loadSettings (world : Surroundings σ) (files : σ) (environment : Environment)
    (config : Option String) (overrides : Overrides) :
    Session.run world (loadSettings environment config overrides).run files =
      ⟨((settingsFile world files environment config).bind (Settings.resolve overrides)).mapError
        .failed, [], files⟩ := by
  -- Without a file the settings are resolved from an empty one.
  cases config with
  | none => exact run_orFail world files (Settings.resolve overrides .empty)
  | some path =>
      rw [loadSettings, Attempt.run_bind_eq, run_readSettingsFile]
      cases settingsFile world files environment (some path) with
      | error cause => rfl
      | ok file =>
          simp only [Except.mapError, run_orFail, List.append_nil]
          rfl

/-- **The settings of a run are exact.** A run whose command line and settings file can be
    read finds settings if and only if its sources give a base URL and a key, and what
    they give is of use; it then holds what they give. Otherwise it fails with the first
    condition that is violated, which names the field and the value that was given. -/
theorem loadSettings_exact {environment : Environment} {line : List String}
    {arguments : Arguments} (hread : Arguments.read environment line = .ok arguments)
    (world : Surroundings σ) (files : σ) {file : FileSettings}
    (hfile : settingsFile world files environment arguments.config = .ok file) :
    ∃ front behind, Arguments.GivenBy line front behind ∧
      let sources := Sources.ofRun environment front behind file
      let loaded := (Session.run world
        (loadSettings environment arguments.config arguments.overrides).run files).value
      (∀ settings, loaded = .ok settings ↔ sources.Accepted settings) ∧
        ∀ stop, loaded = .error stop ↔
          ∃ cause, stop = .failed cause ∧ Check.FirstOf sources.violations cause := by
  rcases Arguments.exists_of_read hread with ⟨front, behind, hgiven, harguments⟩
  refine ⟨front, behind, hgiven, ?_⟩
  intro sources loaded
  have houtput : ∃ path, Gives sources.outputPath path :=
    Sources.exists_gives_outputPath environment front behind file
  -- The run comes to the search among its sources, as nothing is left to ask for.
  have hloaded : loaded = sources.find.mapError .failed := by
    have hresolve : Settings.resolve arguments.overrides file = sources.find := by
      rw [harguments]
      exact Settings.resolve_eq_find environment front behind file arguments.command
    rw [← hresolve]
    simp only [loaded, run_loadSettings, hfile]
    rfl
  rw [hloaded]
  refine ⟨fun settings => ?_, fun stop => ?_⟩
  · -- A result of the search is one of the run, and so is a failure.
    rw [← Sources.find_eq_ok_iff houtput]
    cases sources.find with
    | error cause => exact iff_of_false nofun nofun
    | ok found => rw [Except.mapError, Except.ok.injEq, Except.ok.injEq]
  · simp only [← Sources.find_eq_error_iff houtput]
    cases sources.find with
    | error cause =>
        simp only [Except.mapError, Except.error.injEq, exists_eq_right']
        exact eq_comm
    | ok found => exact iff_of_false nofun fun ⟨_, _, h⟩ => nomatch h

/-- An empty base URL on the command line is refused, whatever the environment and the
    settings file have in its place. -/
theorem loadSettings_exact_emptyUrl :
    let environment : Environment := fun _ => some "https://h"
    let world := MemoryFiles.surroundings (fun _ => .error .notSent) fun _ => false
    let files : MemoryFiles := [("c.toml", "[api]\nbase_url = 'http://h'\nkey = 'k'\n")]
    let line := ["--config", "c.toml", "jobs", "--base-url", ""]
    ∃ arguments, Arguments.read environment line = .ok arguments ∧
      (Session.run world
        (loadSettings environment arguments.config arguments.overrides).run files).value =
          .error (.failed (.invalidSetting "api.base_url" "" "URL cannot be empty")) := by
  intro environment world files line
  have hread : Arguments.read environment line = .ok {
    apiKey := some "https://h"
    baseUrl := some ""
    config := some "c.toml"
    outputDir := none
    verbose := false
    logFormat := .compact
    command := .jobs ⟨⟨⟨none, none⟩, none⟩, false, false⟩ } := by
    rfl
  have hfile : settingsFile world files environment (some "c.toml") =
      .ok ⟨some "http://h", some "k", none, none⟩ := by
    decide +kernel
  refine ⟨_, hread, ?_⟩
  rcases loadSettings_exact hread world files hfile with ⟨front, behind, hgiven, _, hfails⟩
  refine (hfails _).mpr ⟨_, rfl, ?_⟩
  rcases hgiven with ⟨hfront, hword, hbehind, hbehindEnd, hfrontEnd⟩
  have hlevel : firstLevel.read .start line = .ok
      (⟨[], some ⟨⟨"config", .path⟩, some "c.toml"⟩, false, false⟩,
        some ("jobs", ["--base-url", ""])) := rfl
  rw [hlevel, Except.ok.injEq, Prod.mk.injEq, Option.some.injEq, Prod.mk.injEq] at hfront
  rcases hfront with ⟨rfl, rfl, rfl⟩
  have hlast : CommandWord.jobs.level.read .start ["--base-url", ""] =
      .ok (⟨[], some ⟨⟨"base-url", .text⟩, some ""⟩, false, false⟩, none) := rfl
  rw [← Option.some.inj hword, hlast, Except.ok.injEq, Prod.mk.injEq] at hbehind
  rcases hbehind with ⟨rfl, rfl⟩
  rw [← Except.ok.inj hfrontEnd, ← Except.ok.inj hbehindEnd]
  -- The base URL and the key are there, so the first thing to be wrong is the base URL.
  refine .later (fun _ h => ?_) (.later (fun _ h => ?_) (.here ?_))
  · exact nomatch h.1 (some "") List.mem_cons_self
  · exact nomatch h.1 (some "k") (List.mem_of_getLast? rfl)
  · exact ⟨"", ⟨[], _, rfl, nofun⟩, _, .empty, rfl⟩

end Program

end TestbedReport
