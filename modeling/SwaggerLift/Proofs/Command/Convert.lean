import SwaggerLift.Command.Run
import SwaggerLift.Proofs.Command.Directory
import SwaggerLift.Proofs.Json.Print
import SwaggerLift.Proofs.Yaml.Faithful
/-!
Conversions of files. Settings, input and conversion come first, and none of them changes a store;
only what has been converted as a whole is written, and beside the output nothing changes but the
missing directories above it.
-/

namespace SwaggerLift

abbrev Work (α : Type) := ExceptT CommandError (StateM Store) α

namespace Work

variable {α β : Type}

theorem run_bind (x : Work α) (f : α → Work β) (store : Store) :
    (x >>= f).run store =
      match x.run store with
      | (.ok a, next) => (f a).run next
      | (.error error, next) => (.error error, next) := by
  rw [ExceptT.run_bind, Files.bind_apply]
  rcases x.run store with ⟨_ | _, _⟩ <;> rfl

theorem run_attempt (wrap : FileProblem → CommandError) (act : StateM Store (Except FileProblem α))
    (store : Store) :
    (attempt wrap act : Work α).run store = ((act store).1.mapError wrap, (act store).2) := rfl

theorem run_exists? (path : String) (store : Store) :
    (liftM (Files.exists? path : StateM Store Bool) : Work Bool).run store =
      (.ok (store.exists? path), store) := rfl

theorem run_read (wrap : FileProblem → CommandError) (path : String) (store : Store) :
    (attempt wrap (Files.read path : StateM Store _) : Work String).run store =
      ((store.read path).mapError wrap, store) := rfl

end Work

def Store.Loads (store : Store) (settings : Settings) : Prop :=
  if store.exists? Settings.fileName = true then
    ∃ text, store.read Settings.fileName = .ok text ∧
      Yaml.read (.record Settings.record) text = .ok settings
  else settings = .standard

/-- What is asked for, else what a given output path stands for, else what the settings say. -/
def Settings.formatFor (settings : Settings) : Option String → Option Format → Format
  | _, some format => format
  | some output, none => .ofPath output
  | none, none => settings.format.getD (.ofPath settings.output)

/-- All that comes before the writing succeeds, and this text is to be written to this path. -/
def Store.Prepared (store : Store) (input output : Option String) (format : Option Format)
    (path text : String) : Prop :=
  ∃ settings given source document, store.Loads settings ∧
    store.read (input.getD settings.input) = .ok given ∧
    Swagger.Document.read (.ofPath (input.getD settings.input)) given = .ok source ∧
    (convert source).result = .ok document ∧
    path = output.getD settings.output ∧ text = document.render (settings.formatFor output format)

theorem Store.Loads.unique {store : Store} {settings other : Settings}
    (loads : store.Loads settings) (also : store.Loads other) : settings = other := by
  rw [Store.Loads] at loads also
  split at loads
  · obtain ⟨text, read, parsed⟩ := loads
    rw [if_pos ‹_›, read] at also
    obtain ⟨_, same, again⟩ := also
    cases same
    rw [parsed] at again
    cases again
    rfl
  · rw [if_neg ‹_›] at also
    rw [loads, also]

theorem Store.Prepared.unique {store : Store} {input output : Option String}
    {format : Option Format} {path text path' text' : String}
    (prepared : store.Prepared input output format path text)
    (also : store.Prepared input output format path' text') : path = path' ∧ text = text' := by
  obtain ⟨settings, given, source, document, loads, read, parsed, done, rfl, rfl⟩ := prepared
  obtain ⟨settings', given', source', document', loads', read', parsed', done', rfl, rfl⟩ := also
  cases loads.unique loads'
  rw [read] at read'
  cases read'
  rw [parsed] at parsed'
  cases parsed'
  rw [done] at done'
  cases done'
  exact ⟨rfl, rfl⟩

theorem Store.Loads.prepared_iff {store : Store} {settings : Settings}
    (loads : store.Loads settings) (input output : Option String) (format : Option Format)
    (path text : String) :
    store.Prepared input output format path text ↔
      ∃ source document, (∃ given, store.read (input.getD settings.input) = .ok given ∧
        Swagger.Document.read (.ofPath (input.getD settings.input)) given = .ok source) ∧
        (convert source).result = .ok document ∧ path = output.getD settings.output ∧
        text = document.render (settings.formatFor output format) := by
  constructor
  · rintro ⟨other, given, source, document, also, read, parsed, rest⟩
    cases loads.unique also
    exact ⟨source, document, ⟨given, read, parsed⟩, rest⟩
  · rintro ⟨source, document, ⟨given, read, parsed⟩, rest⟩
    exact ⟨settings, given, source, document, loads, read, parsed, rest⟩

theorem Settings.override_output (settings : Settings) (output : Option String)
    (format : Option Format) :
    (settings.override output format).output = output.getD settings.output := by
  cases output <;> cases format <;> rfl

theorem Settings.override_input (settings : Settings) (output : Option String)
    (format : Option Format) :
    (settings.override output format).input = settings.input := by
  cases output <;> cases format <;> rfl

theorem Settings.override_outputFormat (settings : Settings) (output : Option String)
    (format : Option Format) :
    (settings.override output format).outputFormat = settings.formatFor output format := by
  cases output <;> cases format <;> rfl

theorem run_readSettings (store : Store) :
    ∃ result, (readSettings : Work (Option Settings)).run store = (result, store) ∧
      ∀ settings, (∃ found, result = .ok found ∧ found.getD .standard = settings) ↔
        store.Loads settings := by
  simp only [readSettings, Work.run_bind, Work.run_exists?, Store.Loads]
  -- Without a settings file the standard settings count, which are not read from anywhere.
  cases store.exists? Settings.fileName with
  | false =>
      refine ⟨.ok none, rfl, fun settings => ?_⟩
      simp [eq_comm]
  | true =>
      simp only [if_true, Work.run_bind, Work.run_read]
      cases store.read Settings.fileName with
      | error problem => exact ⟨_, rfl, fun settings => by simp⟩
      | ok text =>
          simp only [Except.mapError]
          cases read : Yaml.read (.record Settings.record) text with
          | error fault => exact ⟨_, rfl, fun settings => by simp [read]⟩
          | ok settings => exact ⟨_, rfl, fun other => by simp [read]⟩

theorem run_readDocument (store : Store) (path : String) :
    ∃ result, (readDocument path : Work Swagger.Document).run store = (result, store) ∧
      ∀ source, result = .ok source ↔
        ∃ given, store.read path = .ok given ∧
          Swagger.Document.read (.ofPath path) given = .ok source := by
  simp only [readDocument, Work.run_bind, Work.run_read]
  cases store.read path with
  | error problem => exact ⟨_, rfl, fun source => by simp⟩
  | ok given =>
      simp only [Except.mapError]
      cases read : Swagger.Document.read (.ofPath path) given with
      | error error => exact ⟨_, rfl, fun source => by simp [read]⟩
      | ok source => exact ⟨_, rfl, fun other => by simp [read]⟩

theorem run_write (wrap : FileProblem → CommandError) (store : Store) (path text : String) :
    (attempt wrap (Files.write path text : StateM Store _) : Work Unit).run store =
      match store.write path text with
      | .ok after => (.ok (), after)
      | .error problem => (.error (wrap problem), store) := by
  rw [Work.run_attempt]
  change ((Store.update (·.write path text) store).1.mapError wrap,
    (Store.update (·.write path text) store).2) = _
  rw [Store.update]
  cases store.write path text <;> rfl

/-- What a text that is not admitted meets: a problem with the directory above its path, or, once
    that is there, a problem with the path itself. -/
inductive Store.Refuses (store : Store) (path text : String) : CommandError → Store → Prop
  | noDirectory (directory : String) (problem : FileProblem) (after : Store)
      (parent : Path.parent? path = some directory)
      (stopped : Files.ensureAbove path store = (.error problem, after)) :
      Refuses store path text (.noDirectory directory problem) after
  | unwritable (problem : FileProblem) (after : Store)
      (made : Files.ensureAbove path store = (.ok (), after))
      (refused : after.write path text = .error problem) :
      Refuses store path text (.unwritable path problem) after

theorem Store.Refuses.grown {store after : Store} {path text : String} {error : CommandError}
    (refuses : store.Refuses path text error after) : store.Grown (Place.wayTo path) after := by
  have grown := Files.ensureAbove_grown path store
  cases refuses with
  | noDirectory directory problem _ _ stopped => rwa [stopped] at grown
  | unwritable problem _ made _ => rwa [made] at grown

/-- The directories come first. If they cannot be made, the text is not tried. -/
theorem run_writeOutput (store : Store) (path text : String) :
    (writeOutput path text : Work Unit).run store =
      match Files.ensureAbove path store with
      | (.ok (), middle) =>
          (attempt (.unwritable path) (Files.write path text) : Work Unit).run middle
      | (.error problem, middle) =>
          (.error (.noDirectory ((Path.parent? path).getD "") problem), middle) := by
  cases parent : Path.parent? path with
  | none =>
      have step : (writeOutput path text : Work Unit) =
          attempt (.unwritable path) (Files.write path text) := by
        rw [writeOutput, parent]
      rw [step, Files.ensureAbove, parent]
  | some directory =>
      have step : (writeOutput path text : Work Unit) =
          attempt (.noDirectory directory) (Files.makeDirectories directory) >>= fun _ =>
            attempt (.unwritable path) (Files.write path text) := by
        rw [writeOutput, parent]
      have made : (Files.makeDirectories directory : StateM Store _) store =
          Files.ensureAbove path store := by
        rw [Files.ensureAbove, parent]
      rw [step, Work.run_bind, Work.run_attempt, made]
      rcases Files.ensureAbove path store with ⟨_ | _, middle⟩ <;> rfl

theorem run_writeOutput_of_admits {store : Store} {path : String} (admits : store.Admits path)
    (text : String) :
    (writeOutput path text : Work Unit).run store = (.ok (), store.received path text) := by
  have written := (Store.write_opened_iff admits.opens text _).mpr ⟨admits, rfl⟩
  have made := (Files.ensureAbove_eq_ok_iff path store _).mpr ⟨admits.opens, rfl⟩
  simp only [run_writeOutput, made, run_write, written]

theorem run_writeOutput_of_not_admits {store : Store} {path : String} (other : ¬ store.Admits path)
    (text : String) :
    ∃ error after, (writeOutput path text : Work Unit).run store = (.error error, after) ∧
      store.Refuses path text error after := by
  rw [run_writeOutput]
  cases made : Files.ensureAbove path store with
  | mk result middle =>
      cases result with
      | error problem =>
          cases parent : Path.parent? path with
          | none =>
              rw [Files.ensureAbove, parent] at made
              cases made
          | some directory =>
              exact ⟨_, middle, rfl, .noDirectory directory problem middle parent made⟩
      | ok _ =>
          simp only [run_write]
          cases written : middle.write path text with
          | error problem => exact ⟨_, middle, rfl, .unwritable problem middle made written⟩
          | ok after =>
              obtain ⟨opens, rfl⟩ := (Files.ensureAbove_eq_ok_iff path store middle).mp made
              exact absurd ((Store.write_opened_iff opens text after).mp written).1 other

/-- A conversion leaves the store alone unless everything is prepared, and then what stands in the
    store decides. It succeeds exactly where the path is admitted. -/
structure Store.Converts (store : Store) (input output : Option String) (format : Option Format)
    (outcome : Outcome) (after : Store) : Prop where
  unprepared : (¬ ∃ path text, store.Prepared input output format path text) →
    outcome.code = 1 ∧ after = store
  succeeds_iff : outcome.code = 0 ↔
    ∃ path text, store.Prepared input output format path text ∧ store.Admits path
  written : ∀ path text, store.Prepared input output format path text → store.Admits path →
    after.read path = .ok text ∧ after = store.received path text ∧
      ∀ place, place ≠ Place.ofPath path → after.held? place = store.held? place ∨
        place ∈ Place.wayTo path ∧ store.held? place = none ∧ after.held? place = some .directory
  refused : ∀ path text, store.Prepared input output format path text → ¬ store.Admits path →
    ∃ error, outcome = .ofResult (.error error) ∧ store.Refuses path text error after ∧
      store.Grown (Place.wayTo path) after

theorem Store.converts_of_unprepared {store : Store} {input output : Option String}
    {format : Option Format}
    (never : ∀ path text, ¬ store.Prepared input output format path text) (error : CommandError) :
    store.Converts input output format (.ofResult (.error error)) store where
  unprepared _ := ⟨rfl, rfl⟩
  succeeds_iff := ⟨nofun, fun ⟨path, text, held, _⟩ => absurd held (never path text)⟩
  written path text held := absurd held (never path text)
  refused path text held := absurd held (never path text)

/-- Only one path and one text can be prepared, so it is enough to know how the writing of these
    ends. -/
theorem Store.Prepared.converts {store after : Store} {input output : Option String}
    {format : Option Format} {path text : String} {outcome : Outcome}
    (ready : store.Prepared input output format path text)
    (writes : store.Admits path → outcome.code = 0 ∧ after = store.received path text)
    (refuses : ¬ store.Admits path → ∃ error, outcome = .ofResult (.error error) ∧
      store.Refuses path text error after) :
    store.Converts input output format outcome after where
  unprepared never := absurd ⟨path, text, ready⟩ never
  succeeds_iff := by
    constructor
    · intro zero
      by_cases admits : store.Admits path
      · exact ⟨path, text, ready, admits⟩
      · obtain ⟨error, rfl, _⟩ := refuses admits
        cases zero
    · rintro ⟨other, content, held, admits⟩
      obtain ⟨rfl, rfl⟩ := ready.unique held
      exact (writes admits).1
  written other content held admits := by
    obtain ⟨rfl, rfl⟩ := ready.unique held
    obtain ⟨_, rfl⟩ := writes admits
    exact ⟨admits.read_received text, rfl, admits.received_beside text⟩
  refused other content held denied := by
    obtain ⟨rfl, rfl⟩ := ready.unique held
    obtain ⟨error, same, refused⟩ := refuses denied
    exact ⟨error, same, refused, refused.grown⟩

inductive Store.Ends (store : Store) (input output : Option String) (format : Option Format) :
    Except CommandError String → Store → Prop
  | unprepared (error : CommandError)
      (never : ∀ path text, ¬ store.Prepared input output format path text) :
      Ends store input output format (.error error) store
  | prepared (path text told : String) (ready : store.Prepared input output format path text)
      (result : Except CommandError Unit) (after : Store)
      (ran : (writeOutput path text : Work Unit).run store = (result, after)) :
      Ends store input output format (result.map fun _ => told) after

theorem run_convertFile (store : Store) (input output : Option String) (format : Option Format) :
    ∃ result after, (convertFile input output format : Work String).run store = (result, after) ∧
      store.Ends input output format result after := by
  obtain ⟨settings, ran, loads⟩ := run_readSettings store
  simp only [convertFile, Work.run_bind, ran]
  cases settings with
  | error error =>
      refine ⟨_, store, rfl, .unprepared error ?_⟩
      rintro path text ⟨settings, _, _, _, held, _⟩
      obtain ⟨_, other, _⟩ := (loads settings).mpr held
      cases other
  | ok found =>
      simp only [Settings.override_input, Settings.override_output, Settings.override_outputFormat]
      have held : store.Loads (found.getD .standard) := (loads _).mp ⟨found, rfl, rfl⟩
      generalize found.getD .standard = given at held
      have prepared := held.prepared_iff input output format
      obtain ⟨result, ran, reads⟩ := run_readDocument store (input.getD given.input)
      rw [ran]
      cases result with
      | error error =>
          refine ⟨_, store, rfl, .unprepared error fun path text held => ?_⟩
          obtain ⟨source, _, parsed, _⟩ := (prepared path text).mp held
          cases (reads source).mpr parsed
      | ok source =>
          have parsed := (reads source).mp rfl
          simp only
          cases done : (convert source).result with
          | error error =>
              refine ⟨_, store, rfl, .unprepared _ fun path text held => ?_⟩
              obtain ⟨other, document, same, converted, _⟩ := (prepared path text).mp held
              cases (reads other).mpr same
              rw [done] at converted
              cases converted
          | ok document =>
              have ready := (prepared _ _).mpr ⟨source, document, parsed, done, rfl, rfl⟩
              simp only [Work.run_bind]
              cases ran : (writeOutput (output.getD given.output)
                  (document.render (given.formatFor output format)) : Work Unit).run store with
              | mk result after =>
                  cases result with
                  | error error =>
                      exact ⟨_, after, rfl, .prepared _ _ "" ready (.error error) after ran⟩
                  | ok _ => exact ⟨_, after, rfl, .prepared _ _ _ ready (.ok ()) after ran⟩

/-- Over every store: a conversion writes its whole result or, before it has one, nothing. -/
theorem Command.run_convert (store : Store) (input output : Option String)
    (format : Option Format) :
    store.Converts input output format
      ((Command.run (.convert input output format) : StateM Store Outcome) store).1
      ((Command.run (.convert input output format) : StateM Store Outcome) store).2 := by
  obtain ⟨result, after, ran, ending⟩ := run_convertFile store input output format
  have whole : (Command.run (.convert input output format) : StateM Store Outcome) store =
      (.ofResult result, after) := by
    rw [Command.run, Files.bind_apply, ran]
    rfl
  rw [whole]
  cases ending with
  | unprepared error never => exact Store.converts_of_unprepared never error
  | prepared path text told ready result after wrote =>
      apply ready.converts
      · intro admits
        rw [run_writeOutput_of_admits admits text] at wrote
        cases wrote
        exact ⟨rfl, rfl⟩
      · intro denied
        obtain ⟨error, left, ran, refused⟩ := run_writeOutput_of_not_admits denied text
        rw [ran] at wrote
        cases wrote
        exact ⟨error, rfl, refused⟩

def nestedSettings : Value :=
  .object [("input", .text "api.json"), ("output", .text "openapi.json"), ("format", .text "json")]

def nestedSource : Value :=
  .object [("swagger", .text "2.0"), ("info", .object []), ("paths", .object []),
    ("definitions", .object [("Pet", .object [("type", .text "object")])])]

def nestedDocument : Swagger.Document where
  version := some "2.0"
  info := some (.object .empty)
  paths := some .empty
  definitions := some (.ofList [("Pet", .object (.ofList [("type", .text "object")]))])

def nestedTarget : String :=
  "openapi: 3.0.3\ninfo: \x7b\x7d\npaths: \x7b\x7d\ncomponents:\n" ++
    "  schemas:\n    Pet:\n      type: object\n"

def nestedStore : Store :=
  (Store.empty.set [".s2o.yaml".toList]
      (some (.file (some (String.ofList (Yaml.print nestedSettings)))))).set
    ["api.json".toList] (some (.file (some (Json.compact nestedSource))))

theorem nestedStore_loads : nestedStore.Loads ⟨"api.json", "openapi.json", some .json⟩ := by
  refine ⟨String.ofList (Yaml.print nestedSettings), rfl, ?_⟩
  rw [Yaml.read, Yaml.Document.ofText?_print]
  rfl

theorem read_nestedSource :
    Swagger.Document.read .json (Json.compact nestedSource) = .ok nestedDocument := by
  rw [Swagger.Document.read, Format.read,
    Json.read_of_ofText _ _ nestedSource rfl (Json.ofText_compact _)]
  rfl

theorem nestedStore_prepared :
    nestedStore.Prepared none (some "out/v3/api.yaml") none "out/v3/api.yaml" nestedTarget := by
  have held : nestedStore.read "api.json" = .ok (Json.compact nestedSource) := rfl
  have converted : ∃ document, (convert nestedDocument).result = .ok document ∧
      nestedTarget = document.render .yaml := ⟨_, rfl, by decide +kernel⟩
  obtain ⟨document, done, rendered⟩ := converted
  exact ⟨_, _, _, document, nestedStore_loads, held, read_nestedSource, done, rfl, rendered⟩

theorem nestedStore_admits : nestedStore.Admits "out/v3/api.yaml" := by
  have way : Place.wayTo "out/v3/api.yaml" =
      [["out".toList], ["v3".toList, "out".toList]] := rfl
  constructor
  case names => decide
  case passable =>
    intro place member
    rw [way] at member
    have absent : nestedStore.held? place = none := by
      rcases List.mem_pair.mp member with rfl | rfl <;> decide
    rw [absent]
    nofun
  case apart =>
    rw [way]
    decide
  all_goals decide

/-- The output path given brings its own format, whatever the settings say. -/
theorem Command.run_convert_nested :
    nestedStore.held? ["out".toList] = none ∧
      ∃ outcome after, (Command.run (.convert none (some "out/v3/api.yaml") none) :
          StateM Store Outcome) nestedStore = (outcome, after) ∧ outcome.code = 0 ∧
        after.read "out/v3/api.yaml" = .ok nestedTarget ∧
        after.held? ["out".toList] = some .directory ∧
        after.read "api.json" = .ok (Json.compact nestedSource) := by
  have converts := Command.run_convert nestedStore none (some "out/v3/api.yaml") none
  generalize (Command.run (.convert none (some "out/v3/api.yaml") none) :
    StateM Store Outcome) nestedStore = ran at converts
  have code := converts.succeeds_iff.mpr ⟨_, _, nestedStore_prepared, nestedStore_admits⟩
  obtain ⟨reads, same, _⟩ := converts.written _ _ nestedStore_prepared nestedStore_admits
  refine ⟨by decide, ran.1, ran.2, rfl, code, reads, ?_, ?_⟩
  · rw [same]
    rfl
  · rw [same]
    rfl

end SwaggerLift
