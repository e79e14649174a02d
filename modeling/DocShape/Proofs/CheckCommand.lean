import DocShape.Command.Run
import DocShape.Proofs.Lines
import DocShape.Proofs.Loading

/-! How the command that checks a document ends. What it reads decides the
outcome. A schema that was loaded without resolvers can only hand a document
back or reject it, so that no other failure ever comes with a response. -/

set_option autoImplicit false

namespace DocShape.Command

open Json (Value)

/-! ## Failures of the inputs -/

def Failure.IsRejection (failure : Failure) : Prop :=
  ∃ violation, failure = .rejected violation

private theorem exists_of_mapError {α ε : Type} {read : Except ε α} {wrap : ε → Failure}
    {failure : Failure} (failed : read.mapError wrap = .error failure) :
    ∃ fault, wrap fault = failure := by
  cases read with
  | error fault =>
      cases failed
      exact ⟨fault, rfl⟩
  | ok result => cases failed

private theorem optionsOfFile_error {file : Option (String × Except FileFault String)}
    {failure : Failure} (failed : optionsOfFile file = .error failure) :
    ¬ failure.IsRejection := by
  rintro ⟨violation, rfl⟩
  rcases file with _ | ⟨path, fault | text⟩
  · cases failed
  · cases failed
  · obtain ⟨fault, wrapped⟩ := exists_of_mapError failed
    cases wrapped

private theorem documentOfText_error {contents : Except FileFault String} {failure : Failure}
    (failed : documentOfText contents = .error failure) : ¬ failure.IsRejection := by
  rintro ⟨violation, rfl⟩
  rcases contents with fault | text
  · cases failed
  · simp only [documentOfText] at failed
    split at failed
    · cases failed
    · obtain ⟨fault, wrapped⟩ := exists_of_mapError failed
      cases wrapped

private theorem documentOfText_ok {contents : Except FileFault String} {document : Value}
    (parsed : documentOfText contents = .ok document) :
    ∃ text, contents = .ok text ∧ Value.read text = .ok document := by
  rcases contents with fault | text
  · cases parsed
  · refine ⟨text, rfl, ?_⟩
    simp only [documentOfText] at parsed
    split at parsed
    · cases parsed
    · cases read : Value.read text with
      | error fault =>
          rw [read] at parsed
          cases parsed
      | ok value =>
          rw [read] at parsed
          cases parsed
          rfl

private theorem schemaOfFile_error {contents : Except FileFault String} {error : Error}
    (failed : schemaOfFile contents = .error error) : ¬ (Failure.ofError error).IsRejection := by
  rintro ⟨violation, rejected⟩
  rcases contents with fault | text
  · cases failed
    cases rejected
  · simp only [schemaOfFile, Loader.loadFile, Loader.loadText] at failed
    split at failed
    · cases failed
      cases rejected
    · obtain ⟨path, fault, rfl⟩ := Loader.malformed_of_load failed
      cases rejected

theorem schemaOfFile_ok {contents : Except FileFault String} {schema : Schema (Resolver Unit)}
    (loaded : schemaOfFile contents = .ok schema) :
    ∃ definition, Loader.empty.load definition = .ok schema := by
  rcases contents with fault | text
  · cases loaded
  · simp only [schemaOfFile, Loader.loadFile, Loader.loadText] at loaded
    split at loaded
    · cases loaded
    · exact ⟨_, loaded⟩

/-- Where no resolver is registered, a document is handed back or rejected. -/
theorem validateDocument_of_load {definition : Value} {schema : Schema (Resolver Unit)}
    (loaded : Loader.empty.load definition = .ok schema) (options : Options) (document : Value) :
    validateDocument schema options document = .ok document ∨
      ∃ violation, validateDocument schema options document = .error (.rejected violation) :=
  validate_of_resolvers_nil (Loader.uniqueNames_of_load loaded)
    (Loader.resolvers_eq_nil_of_load loaded rfl) (Loader.not_malformed_of_load loaded)
    options document ()

/-! ## From what was read to the outcome -/

/-- All that a check may read: the options file, if one is named, the document and
the definition of the schema. -/
structure Readings where
  config : Option (String × Except FileFault String)
  document : Except FileFault String
  schema : Except FileFault String

namespace Readings

/-- The options of the file under those of the command line. -/
def options (read : Readings) (arguments : CheckArguments) : Except Failure Options :=
  (optionsOfFile read.config).map (overrideOptions arguments.strict arguments.rootKey)

def outcome (read : Readings) (arguments : CheckArguments) : Outcome :=
  match read.options arguments with
  | .error failure => .failed failure
  | .ok options =>
      match documentOfText read.document with
      | .error failure => .failed failure
      | .ok document => check read.schema options document

structure Usable (read : Readings) (arguments : CheckArguments) (options : Options)
    (document : Value) (schema : Schema (Resolver Unit)) : Prop where
  options : read.options arguments = .ok options
  document : ∃ text, read.document = .ok text ∧ Value.read text = .ok document
  schema : schemaOfFile read.schema = .ok schema

inductive Unusable (read : Readings) (arguments : CheckArguments) : Failure → Prop where
  | options {failure : Failure} (failed : read.options arguments = .error failure) :
      Unusable read arguments failure
  | document {failure : Failure} (failed : documentOfText read.document = .error failure) :
      Unusable read arguments failure
  | schema {error : Error} (failed : schemaOfFile read.schema = .error error) :
      Unusable read arguments (.ofError error)

theorem Unusable.not_isRejection {read : Readings} {arguments : CheckArguments}
    {failure : Failure} (unusable : read.Unusable arguments failure) :
    ¬ failure.IsRejection := by
  cases unusable with
  | options failed =>
      unfold Readings.options at failed
      cases file : optionsOfFile read.config with
      | error reason =>
          rw [file] at failed
          cases failed
          exact optionsOfFile_error file
      | ok options =>
          rw [file] at failed
          cases failed
  | document failed => exact documentOfText_error failed
  | schema failed => exact schemaOfFile_error failed

/-- The three ways in which a check ends. -/
inductive Ends (read : Readings) (arguments : CheckArguments) : Outcome → Prop where
  | failed {failure : Failure} (unusable : read.Unusable arguments failure) :
      Ends read arguments (.failed failure)
  | accepted {options : Options} {document : Value} {schema : Schema (Resolver Unit)}
      (usable : read.Usable arguments options document schema)
      (valid : validateDocument schema options document = .ok document) :
      Ends read arguments { output := (Response.accepted document).line, failure := none }
  | rejected {options : Options} {document : Value} {schema : Schema (Resolver Unit)}
      {violation : Violation} (usable : read.Usable arguments options document schema)
      (invalid : validateDocument schema options document = .error (.rejected violation)) :
      Ends read arguments
        { output := (Response.refused violation.code violation.path violation.rejection).line
          failure := some (.rejected violation) }

theorem ends_outcome (read : Readings) (arguments : CheckArguments) :
    read.Ends arguments (read.outcome arguments) := by
  unfold outcome
  cases chosen : read.options arguments with
  | error failure => exact .failed (.options chosen)
  | ok options =>
      cases parsed : documentOfText read.document with
      | error failure => exact .failed (.document parsed)
      | ok document =>
          simp only [check]
          cases loaded : schemaOfFile read.schema with
          | error error => exact .failed (.schema loaded)
          | ok schema =>
              have usable : read.Usable arguments options document schema :=
                ⟨chosen, documentOfText_ok parsed, loaded⟩
              obtain ⟨definition, built⟩ := schemaOfFile_ok loaded
              rcases validateDocument_of_load built options document with
                valid | ⟨violation, invalid⟩
              · simp only [valid]
                exact .accepted usable valid
              · simp only [invalid]
                exact .rejected usable invalid

end Readings

/-! ## Reading -/

section

variable {σ : Type}

def configContents (world : World (StateM σ)) :
    Option String → StateM σ (Option (String × Except FileFault String))
  | none => return none
  | some path => return some (path, ← world.file path)

def documentContents (world : World (StateM σ)) :
    Option String → StateM σ (Except FileFault String)
  | some path => world.file path
  | none => world.input

/-- Reads everything, also after a failure, where a check would stop. -/
def readings (world : World (StateM σ)) (arguments : CheckArguments) : StateM σ Readings := do
  let config ← configContents world arguments.config
  let document ← documentContents world arguments.input
  let schema ← world.file arguments.schema
  return { config, document, schema }

private theorem readOptions_eq (world : World (StateM σ)) (config : Option String) :
    readOptions world config = optionsOfFile <$> configContents world config := by
  cases config <;> rfl

private theorem readDocument_eq (world : World (StateM σ)) (input : Option String) :
    readDocument world input = documentOfText <$> documentContents world input := by
  cases input <;> rfl

private theorem run_bind_eq {α β : Type} (action : StateM σ α) (next : α → StateM σ β) (state : σ) :
    (action >>= next).run state = (next (action.run state).1).run (action.run state).2 :=
  rfl

private theorem run_map_eq {α β : Type} (change : α → β) (action : StateM σ α) (state : σ) :
    (change <$> action).run state = (change (action.run state).1, (action.run state).2) :=
  rfl

private theorem run_pure_eq {α : Type} (result : α) (state : σ) :
    (pure result : StateM σ α).run state = (result, state) :=
  rfl

theorem runCheck_outcome (world : World (StateM σ)) (arguments : CheckArguments) (state : σ) :
    ((runCheck world arguments).run state).1 =
      ((readings world arguments).run state).1.outcome arguments := by
  simp only [runCheck, loadOptions, readOptions_eq, readDocument_eq, readings, run_bind_eq,
    run_map_eq, run_pure_eq, Readings.outcome, Readings.options]
  cases (optionsOfFile ((configContents world arguments.config).run state).1).map
      (overrideOptions arguments.strict arguments.rootKey) with
  | error failure => rfl
  | ok options =>
      simp only [run_bind_eq, run_map_eq]
      cases documentOfText ((documentContents world arguments.input).run _).1 with
      | error failure => rfl
      | ok document => rfl

end

/-! ## Response lines -/

theorem write_status (status : String) (members : List (String × Value)) :
    ∃ rest, (Value.object (("status", .string status) :: members)).write ++ "\n" =
      "\x7b\"status\":" ++ Json.quote status ++ rest := by
  have name : Json.quote "status" = "\"status\"" := by decide
  cases members with
  | nil =>
      refine ⟨"\x7d\n", ?_⟩
      simp only [Value.write, Value.writeMembers, name, String.append_assoc]
      rfl
  | cons next rest =>
      refine ⟨"," ++ Value.writeMembers (next :: rest) ++ "\x7d\n", ?_⟩
      simp only [Value.write, Value.writeMembers, name, String.append_assoc]
      rfl

theorem ok_line_ne_error_line (accepted refused : List (String × Value)) :
    (Value.object (("status", .string "ok") :: accepted)).write ++ "\n" ≠
      (Value.object (("status", .string "error") :: refused)).write ++ "\n" := by
  obtain ⟨restAccepted, written⟩ := write_status "ok" accepted
  obtain ⟨restRefused, written'⟩ := write_status "error" refused
  have ok : Json.quote "ok" = "\"ok\"" := by decide
  have error : Json.quote "error" = "\"error\"" := by decide
  rw [written, written', ok, error]
  intro same
  have chars := congrArg String.toList same
  simp at chars

/-- Whatever is read, a check writes the document it accepts or the violation it
rejects the document for, on one line, and after every other failure nothing. -/
theorem runInvocation_check {σ : Type} (world : World (StateM σ)) (arguments : CheckArguments)
    (state : σ) :
    let read := ((readings world arguments).run state).1
    let outcome := ((runInvocation world (.check arguments)).run state).1
    (match outcome.failure with
      | none =>
          ∃ options document schema, read.Usable arguments options document schema ∧
            validateDocument schema options document = .ok document ∧
            outcome.output =
              (Value.object [("status", .string "ok"), ("data", document)]).write ++ "\n"
      | some (.rejected violation) =>
          ∃ options document schema, read.Usable arguments options document schema ∧
            validateDocument schema options document = .error (.rejected violation) ∧
            outcome.output =
              (Value.object [("status", .string "error"), ("code", .string violation.code),
                ("key_path", .string violation.path),
                ("message", .string violation.rejection)]).write ++ "\n"
      | some failure => read.Unusable arguments failure ∧ outcome.output = "") ∧
    (outcome.output = "" ∨ Text.IsLine outcome.output) ∧
    (∀ failure, outcome.failure = some failure → failure.code = "SHAPE_CLI_SCHEMA_ERROR" →
      outcome.output = "") ∧
    (∀ members, outcome.output =
        (Value.object (("status", .string "error") :: members)).write ++ "\n" →
      outcome.exit.code = 1) := by
  intro read outcome
  have ends : read.Ends arguments outcome := by
    have same : outcome = read.outcome arguments := runCheck_outcome world arguments state
    rw [same]
    exact read.ends_outcome arguments
  clear_value outcome
  cases ends with
  | @failed failure unusable =>
      refine ⟨?_, .inl rfl, fun _ _ _ => rfl, fun _ _ => rfl⟩
      cases failure with
      | rejected violation => exact absurd ⟨violation, rfl⟩ unusable.not_isRejection
      | unreadableOptions | invalidOptions | emptyDocument | file | json | schema =>
          exact ⟨unusable, rfl⟩
  | accepted usable valid =>
      refine ⟨⟨_, _, _, usable, valid, rfl⟩, .inr (Response.isLine_line _), by simp, ?_⟩
      intro members same
      exact absurd same (ok_line_ne_error_line _ members)
  | rejected usable invalid =>
      refine ⟨⟨_, _, _, usable, invalid, rfl⟩, .inr (Response.isLine_line _), ?_, ?_⟩
      · rintro failure ⟨⟩ code
        exact absurd code (by simp [Failure.code])
      · intro members _
        rfl

end DocShape.Command
