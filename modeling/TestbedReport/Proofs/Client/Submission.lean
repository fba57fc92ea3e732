import TestbedReport.Program
import TestbedReport.Proofs.Client.Exchange
import TestbedReport.Proofs.Text.Base64

/-!
# Submitting a Job

A job that is queued passes three encodings: its firmware becomes harmless
characters, its texts are escaped, and its numbers become numerals. The server
undoes all of them, so what matters is what it gets: the members it reads, under
which names, in which order, and with which values.

What may be left out is part of that. A member that was not asked for has no
name in the document, and the overrides of the configuration are there as soon as
one of them is, with nothing but what was given.

## Main definitions

* `Describes`: Members that say what was asked for.

## Theorems

* `JobRequest.describes`: A job is written as what was asked for.
* `JobRequest.parse?_toText`: A written job is read as what was written.
* `Client.requests_createJob`: Queueing a job sends one request, if it has a place.
* `Program.queue_submits`: What the server reads of a job that is queued.
-/

namespace TestbedReport

/-- The names that the description of every job has. -/
def JobRequest.requiredKeys : List String :=
  ["protocol", "layout", "periodicity", "message_length", "patching", "name", "description",
    "duration", "logs", "jamming", "priority", "file"]

/-- Members that say what was asked for, in the order the server expects, and
    nothing else. What was not asked for is left out. -/
structure Describes (options : QueueOptions) (firmware : List UInt8)
    (members : List (String × Json)) : Prop where
  keys : members.map (·.1) = JobRequest.requiredKeys ++
    (if options.job.tempProfile.isSome then ["temp_profile"] else []) ++
    (if options.job.overrideStart.isSome || options.job.overrideDelta.isSome
      then ["config_overrides"] else [])
  protocol : members.lookup "protocol" = some (.integer options.job.protocol.toInt)
  layout : members.lookup "layout" = some (.text options.job.layout)
  periodicity : members.lookup "periodicity" = some (.integer options.job.periodicity.toInt)
  messageLength : members.lookup "message_length" = some (.integer options.job.messageLength.toInt)
  patching : members.lookup "patching" = some (.integer options.job.patching.toInt)
  name : members.lookup "name" = some (.text options.job.name)
  description : members.lookup "description" = some (.text options.job.description)
  duration : members.lookup "duration" = some (.integer options.job.duration.toInt)
  logs : members.lookup "logs" = some (.integer options.job.logs.toInt)
  jamming : members.lookup "jamming" = some (.integer options.job.jamming.toInt)
  priority : members.lookup "priority" = some (.bool options.job.priority)
  file : ∃ text : String, members.lookup "file" = some (.text text) ∧
    Base64.decode? text.toList = some firmware
  tempProfile : members.lookup "temp_profile" = options.job.tempProfile.map .text
  overrides : members.lookup "config_overrides" =
    if options.job.overrideStart.isSome || options.job.overrideDelta.isSome then
      some (.object
        ((options.job.overrideStart.map fun value => ("start", Json.integer value.toInt)).toList ++
          (options.job.overrideDelta.map fun value => ("delta", Json.integer value.toInt)).toList))
    else none

namespace JobRequest

/-- A job is written as what was asked for, with its firmware inside. -/
theorem describes (options : QueueOptions) (firmware : List UInt8) :
    ∃ members, (options.withFirmware firmware).toJson = .object members ∧
      Describes options firmware members := by
  rcases options with ⟨⟨protocol, layout, periodicity, messageLength, patching, name, description,
    duration, logs, jamming, priority, placeholder, tempProfile, start, delta⟩, path⟩
  -- Which members there are depends on what was given, so the lookups are made case by case.
  cases tempProfile <;> cases start <;> cases delta <;>
    exact ⟨_, rfl, {
      keys := rfl, protocol := rfl, layout := rfl, periodicity := rfl, messageLength := rfl
      patching := rfl, name := rfl, description := rfl, duration := rfl, logs := rfl
      jamming := rfl, priority := rfl
      file := ⟨_, rfl, by rw [String.toList_ofList, Base64.decode?_encode]; rfl⟩
      tempProfile := rfl, overrides := rfl }⟩

/-- The names of the members are those it always has, then those that are left out
    unless they were asked for. -/
theorem nodup_keys {options : QueueOptions} {firmware : List UInt8}
    {members : List (String × Json)} (h : Describes options firmware members) :
    (members.map (·.1)).Nodup := by
  rw [h.keys]
  cases options.job.tempProfile.isSome <;>
    cases (options.job.overrideStart.isSome || options.job.overrideDelta.isSome) <;> decide

/-- The given overrides are exact. -/
theorem exact_overrides (start delta : Option Int64) :
    Json.Exact 1 (.object (optionalInt "start" start ++ optionalInt "delta" delta)) := by
  refine .object 0 _ ?_ ?_
  · cases start <;> cases delta <;> simp [optionalInt]
  · -- One of the two at a time, for each is a list of its own.
    have hgiven : ∀ key (value : Option Int64), ∀ member ∈ optionalInt key value,
        Json.Exact 0 member.2 := by
      intro key value member hmember
      cases value with
      | none => simp [optionalInt] at hmember
      | some value =>
          rw [optionalInt, List.mem_singleton] at hmember
          rw [hmember]
          exact Json.exact_int64 0 value
    intro member hmember
    rcases List.mem_append.mp hmember with hstart | hdelta
    · exact hgiven _ _ member hstart
    · exact hgiven _ _ member hdelta

/-- A written job is read as the job. -/
theorem parse?_toText (job : JobRequest) : Json.parse? job.toJson.toText = some job.toJson := by
  rcases describes ⟨job, ""⟩ job.firmware with ⟨members, hjson, hdescribes⟩
  have hvalues : ∀ member ∈ members, Json.Exact 1 member.2 := by
    have hmembers := Json.object.inj (show job.toJson = .object members from hjson)
    -- The members that may be absent are looked at apart from the others.
    have hoverrides : ∀ member ∈ job.overrides, Json.Exact 1 member.2 := by
      intro member hmember
      have hexact := exact_overrides job.overrideStart job.overrideDelta
      rw [overrides] at hmember
      cases hgiven : optionalInt "start" job.overrideStart ++
        optionalInt "delta" job.overrideDelta with
      | nil => simp [hgiven] at hmember
      | cons first rest =>
          rw [hgiven] at hmember hexact
          rw [List.mem_singleton] at hmember
          rw [hmember]
          exact hexact
    rw [← hmembers]
    simp only [List.forall_mem_append, List.forall_mem_cons]
    have hint := Json.exact_int64 1
    have htext := Json.Exact.text 1
    refine ⟨⟨⟨hint _, htext _, hint _, hint _, hint _, htext _, htext _, hint _, hint _, hint _,
      .bool 1 _, htext _, List.forall_mem_nil _⟩, ?_⟩, hoverrides⟩
    intro member hmember
    cases hgiven : job.tempProfile with
    | none => simp [hgiven] at hmember
    | some profile =>
        rw [hgiven, List.mem_singleton] at hmember
        rw [hmember]
        exact htext profile
  have hexact := Json.Exact.object 1 members (nodup_keys hdescribes) hvalues
  rw [← hjson] at hexact
  exact Json.parse?_toText hexact (by decide)

end JobRequest

/-- A value computed at the end of an attempt sends nothing more. -/
theorem Attempt.requests_bind_pure {α β σ : Type} (x : Attempt α) (g : α → β)
    (world : Surroundings σ) (files : σ) :
    (Session.run world (x >>= fun value => pure (g value)).run files).requests =
      (Session.run world x.run files).requests := by
  rw [Attempt.run_bind_eq]
  simp only
  cases (Session.run world x.run files).value with
  | error stop => rfl
  | ok value => exact List.append_nil _

theorem Client.placeOf_createResource (client : Client) :
    client.placeOf createResource = Url.parse (client.address ++ "/api/queue/create_job") := by
  rw [placeOf, String.append_assoc]
  rfl

/-- Queueing a job sends one request, to the place for new jobs with the key behind
    it and with the job as its body. -/
theorem Client.requests_createJob {σ : Type} {client : Client} {place : Url}
    (hplace : client.placeOf createResource = .ok place) (job : JobRequest) (now : Int)
    (world : Surroundings σ) (files : σ) :
    (Session.run world (client.createJob job now).run files).requests =
      [⟨.post, place.addPairs [(Url.keyName, client.key)], job.toJson.toText,
        client.timeoutSeconds⟩] := by
  have hurl : client.resourceUrl createResource .all now =
      .ok (place.addPairs [(Url.keyName, client.key)]) :=
    resourceUrl_eq hplace fun _ hdays => nomatch hdays
  rw [createJob, Attempt.requests_bind_pure, run_exchange hurl]

/-- Without a place for new jobs nothing is sent. -/
theorem Client.run_createJob_of_no_place {σ : Type} {client : Client} {fault : UrlFault}
    (hplace : client.placeOf createResource = .error fault) (job : JobRequest) (now : Int)
    (world : Surroundings σ) (files : σ) :
    Session.run world (client.createJob job now).run files =
      ⟨.error (.failed (.url fault)), [], files⟩ := by
  have hurl : client.resourceUrl createResource .all now = .error (.failed (.url fault)) := by
    rw [resourceUrl, hplace]
  rw [createJob, exchange, hurl]
  rfl

/-- An attempt that goes on with the content of a file ends without it. -/
theorem Program.run_contentOf_bind {β σ : Type} (path : String) (f : List UInt8 → Attempt β)
    (world : Surroundings σ) (files : σ) :
    Session.run world (contentOf path >>= f).run files =
      match world.read path files with
      | .error fault => ⟨.error (.failed (.file fault)), [], files⟩
      | .ok bytes => Session.run world (f bytes).run files := by
  have hfetched : Session.run world (ExceptT.lift (Session.fetch path) : Attempt _).run files =
      ⟨.ok (world.read path files), [], files⟩ := rfl
  rw [Attempt.run_bind_eq, contentOf, Attempt.run_bind_eq, hfetched]
  cases world.read path files with
  | error fault => rfl
  | ok bytes => rfl

/-- With the firmware and the place a job is queued by one request. -/
theorem Program.requests_queue {σ : Type} {settings : Settings} {options : QueueOptions}
    {world : Surroundings σ} {files : σ} {firmware : List UInt8} {place : Url}
    (hread : world.read options.firmwarePath files = .ok firmware)
    (hplace : (clientOf settings).placeOf Client.createResource = .ok place) (now : Int) :
    (Session.run world (perform settings now (.queue options)).run files).requests =
      [⟨.post, place.addPairs [(Url.keyName, settings.key)],
        (options.withFirmware firmware).toJson.toText, settings.timeoutSeconds⟩] := by
  rw [perform, run_contentOf_bind, hread]
  simp only [Attempt.requests_bind_pure, Client.requests_createJob hplace]
  rfl

/-- **What the server reads of a job that is queued.** One request is sent, to the
    place for new jobs with the key as its only pair. Its body is a document that says
    what was asked for, with the bytes of the firmware file inside. Without the firmware
    or without the place nothing is sent. -/
theorem Program.queue_submits {σ : Type} (settings : Settings) (options : QueueOptions) (now : Int)
    (world : Surroundings σ) (files : σ) :
    let run := Session.run world (perform settings now (.queue options)).run files
    let found := Url.parse ((clientOf settings).address ++ "/api/queue/create_job")
    (∀ fault, world.read options.firmwarePath files = .error fault →
      run = ⟨.error (.failed (.file fault)), [], files⟩) ∧
    ∀ firmware, world.read options.firmwarePath files = .ok firmware →
      (∀ fault, found = .error fault → run = ⟨.error (.failed (.url fault)), [], files⟩) ∧
      ∀ place, found = .ok place → ∃ body members,
        run.requests =
          [⟨.post, place.addPairs [("key", settings.key)], body, settings.timeoutSeconds⟩] ∧
        Json.parse? body = some (.object members) ∧ Describes options firmware members := by
  have hresource := (clientOf settings).placeOf_createResource
  intro run found
  -- The firmware is read first, and only then is there a URL to be made.
  refine ⟨fun fault hread => ?unread, fun firmware hread => ⟨fun fault hplace => ?unplaced,
    fun place hplace => ?sent⟩⟩
  case unread =>
    simp only [run, perform]
    rw [run_contentOf_bind, hread]
  case unplaced =>
    simp only [run, perform]
    rw [run_contentOf_bind, hread]
    simp only
    rw [Attempt.run_bind_eq, Client.run_createJob_of_no_place (hresource.trans hplace)]
  case sent =>
    rcases JobRequest.describes options firmware with ⟨members, hjson, hdescribes⟩
    refine ⟨(options.withFirmware firmware).toJson.toText, members,
      requests_queue hread (hresource.trans hplace) now, ?_, hdescribes⟩
    rw [JobRequest.parse?_toText, hjson]

/-- The place for new jobs of a server with a path of its own. -/
def labPlace : Url :=
  ⟨"http", some ⟨"", none, .domain "localhost", none⟩, .segments ["lab", "api", "queue",
    "create_job"], none, none⟩

/-- It is found behind an address with too many slashes. -/
theorem parse_labPlace :
    Url.parse ((Client.new "http://localhost/lab//" "a&b" (some 5)).address ++
      "/api/queue/create_job") = .ok labPlace := by
  rfl

/-- A job with marks in its texts, with a profile and with an override of zero, queued
    under a key that is no plain word. -/
theorem Program.queue_submits_marked :
    let settings : Settings := ⟨"http://localhost/lab//", "a&b", ".", some 5⟩
    let options : QueueOptions := ⟨⟨-1, "tree", 0, 9223372036854775807, 1, "say \"x\"",
      "two\nlines", 60, 1, 0, true, [], some "Grüße", some 0, none⟩, "firmware.bin"⟩
    let world : Surroundings Unit :=
      ⟨fun _ => .error .notSent, fun _ _ files => (.ok (), files), fun _ _ => .ok [0, 255, 77, 97]⟩
    ∃ url body members,
      (Session.run world (perform settings 1700000000 (.queue options)).run ()).requests =
        [⟨.post, url, body, some 5⟩] ∧
      url.text = "http://localhost/lab/api/queue/create_job?key=a%26b" ∧
      body = "\x7b\"protocol\":-1,\"layout\":\"tree\",\"periodicity\":0," ++
        "\"message_length\":9223372036854775807,\"patching\":1,\"name\":\"say \\\"x\\\"\"," ++
        "\"description\":\"two\\nlines\",\"duration\":60,\"logs\":1,\"jamming\":0," ++
        "\"priority\":true,\"file\":\"AP9NYQ==\",\"temp_profile\":\"Grüße\"," ++
        "\"config_overrides\":\x7b\"start\":0\x7d\x7d" ∧
      Json.parse? body = some (.object members) ∧
      Describes options [0, 255, 77, 97] members := by
  intro settings options world
  have hplace : Url.parse ((clientOf settings).address ++ "/api/queue/create_job") = .ok labPlace :=
    parse_labPlace
  have hread : world.read options.firmwarePath () = .ok [0, 255, 77, 97] := rfl
  rcases ((queue_submits settings options 1700000000 world ()).2 _ hread).2 _ hplace with
    ⟨body, members, hrequests, hparse, hdescribes⟩
  -- The body is the text of the job, since the one request is known in full.
  have hbody : body = (options.withFirmware [0, 255, 77, 97]).toJson.toText := by
    have hresource := (clientOf settings).placeOf_createResource.trans hplace
    have hsame := hrequests.symm.trans (requests_queue hread hresource 1700000000)
    exact congrArg Request.body (List.cons.inj hsame).1
  have htext : (labPlace.addPairs [("key", "a&b")]).text =
      "http://localhost/lab/api/queue/create_job?key=a%26b" := by rfl
  refine ⟨labPlace.addPairs [("key", "a&b")], body, members, hrequests, htext, ?_, hparse,
    hdescribes⟩
  rw [hbody]
  decide +kernel

end TestbedReport
