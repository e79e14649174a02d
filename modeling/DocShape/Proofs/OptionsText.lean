import DocShape.Options.Reader
import DocShape.Proofs.WrittenText

/-!
# Options and their text

Options are read back from the text that is written for them. Members of other
names may stand among their members and change nothing, whatever their values:
numbers of any size, containers of any depth, with white space or without.
-/

set_option autoImplicit false

namespace DocShape

open Json

namespace Options

/-! ## Documents -/

/-- The names of the options. -/
def names : List String := ["strict", "root_key"]

/-- A member, given by its name and the text of its value. -/
def memberText (member : String × String) : String :=
  quote member.1 ++ ":" ++ member.2

/-- The object with the given members. -/
def document (members : List (String × String)) : String :=
  "\x7b" ++ ",".intercalate (members.map memberText) ++ "\x7d"

def written (members : List (String × Value)) : List (String × String) :=
  members.map fun member => (member.1, member.2.write)

theorem write_object (members : List (String × Value)) :
    (Value.object members).write = document (written members) := by
  have joined : Value.writeMembers members =
      ",".intercalate ((written members).map memberText) := by
    induction members with
    | nil => simp [Value.writeMembers, written]
    | cons member members ih =>
        cases members with
        | nil => simp [Value.writeMembers, written, memberText]
        | cons next members =>
            rw [Value.writeMembers, ih]
            · simp [written, memberText]
            · simp
  rw [Value.write, joined, document]

/-! ## Reading members -/

/-- What reading a member makes of the options found before it. -/
inductive Partial.Takes (found : Partial) : String × String → Partial → Prop where
  | strict (truth : Bool) : found.strict = none →
      Takes found ("strict", (Value.bool truth).write) { found with strict := some truth }
  | rootKey (key : String) : found.rootKey = none →
      Takes found ("root_key", (Value.string key).write) { found with rootKey := some (some key) }
  | other {name text : String} : name ∉ names → IsElement text.toList →
      Takes found (name, text) found

inductive Partial.TakesAll : Partial → List (String × String) → Partial → Prop where
  | nil {found : Partial} : TakesAll found [] found
  | cons {found next final : Partial} {member : String × String}
      {members : List (String × String)} :
      found.Takes member next → TakesAll next members final →
      TakesAll found (member :: members) final

variable {found next final : Partial} {member : String × String}
  {members : List (String × String)}

/-- Behind its opening quotation mark. -/
def memberTail (member : String × String) : List Char :=
  member.1.toList.flatMap escapeChar ++ '"' :: ':' :: member.2.toList

private theorem readOption_memberTail (name text : String) (rest : List Char) :
    readOption found (memberTail (name, text) ++ rest) =
      readNamed found name (':' :: (text.toList ++ rest)) := by
  simp only [readOption, memberTail, List.append_assoc, List.cons_append, readString_flatMap, bind,
    Except.bind, String.ofList_toList]

private theorem readBool_write (truth : Bool) (rest : List Char) :
    readBool ((Value.bool truth).write.toList ++ rest) = .ok (truth, rest) := by
  cases truth <;> rfl

private theorem readStringOrNull_write (text : String) (rest : List Char) :
    readStringOrNull ((Value.string text).write.toList ++ rest) = .ok (some text, rest) := by
  have marked : next? ('"' :: (text.toList.flatMap escapeChar ++ '"' :: rest)) =
      some ('"', text.toList.flatMap escapeChar ++ '"' :: rest) := next?_cons rfl _
  rw [Value.write, toList_quote, List.cons_append, List.append_assoc, List.singleton_append,
    readStringOrNull, marked]
  simp [readString_flatMap, bind, Except.bind, pure, Except.pure]

private theorem readOption_of_takes (taken : found.Takes member next) {rest : List Char}
    (ends : EndsValue rest) :
    ∃ behind, readOption found (memberTail member ++ rest) = .ok (next, behind) ∧
      next? behind = next? rest := by
  cases taken with
  | strict truth fresh =>
      refine ⟨rest, ?_, rfl⟩
      rw [readOption_memberTail, readNamed, if_pos rfl, fresh, readColon_colon rfl]
      simp [readBool_write, bind, Except.bind, pure, Except.pure]
  | rootKey key fresh =>
      refine ⟨rest, ?_, rfl⟩
      rw [readOption_memberTail, readNamed, if_neg (by decide), if_pos rfl, fresh,
        readColon_colon rfl]
      simp [readStringOrNull_write, bind, Except.bind, pure, Except.pure]
  | other foreign form =>
      obtain ⟨strict, rootKey⟩ := by simpa [names] using foreign
      obtain ⟨behind, skipped, same⟩ := form.skipValue_append ends
      refine ⟨behind, ?_, same⟩
      rw [readOption_memberTail, readNamed, if_neg strict, if_neg rootKey, readColon_colon rfl]
      simp [skipped, bind, Except.bind, pure, Except.pure]

private theorem nextName_closed {behind rest : List Char} {first : Bool}
    (same : next? behind = next? ('\x7d' :: rest)) :
    nextName first behind = .ok (.closed rest) := by
  rw [nextName, same]
  rfl

private theorem nextName_more {behind text : List Char}
    (same : next? behind = next? (',' :: '"' :: text)) :
    nextName false behind = .ok (.more text) := by
  rw [nextName, same]
  rfl

/-- The rest of a document, behind one of its members. -/
def furtherMembers (members : List (String × String)) : List Char :=
  members.flatMap fun member => ',' :: '"' :: memberTail member

private theorem endsValue_furtherMembers (members : List (String × String)) (rest : List Char) :
    EndsValue (furtherMembers members ++ '\x7d' :: rest) := by
  cases members with
  | nil => exact endsValue_cons _ _ (by decide)
  | cons member members => exact endsValue_cons _ _ (by decide)

private theorem foldParts_of_takesAll (taken : found.TakesAll members final) {rest : List Char} :
    ∀ {behind : List Char} {budget : Nat}, members.length < budget →
      next? behind = next? (furtherMembers members ++ '\x7d' :: rest) →
      foldParts nextName readOption budget false found behind = .ok (final, rest) := by
  induction taken with
  | nil =>
      intro behind budget bound same
      obtain ⟨budget, rfl⟩ := Nat.exists_eq_add_one_of_ne_zero (Nat.ne_of_gt bound)
      exact foldParts_closed (nextName_closed same)
  | @cons found next final member members first _ ih =>
      intro behind budget bound same
      have positive := Nat.zero_lt_of_lt bound
      obtain ⟨budget, rfl⟩ := Nat.exists_eq_add_one_of_ne_zero (Nat.ne_of_gt positive)
      obtain ⟨after, read, follows⟩ :=
        readOption_of_takes first (endsValue_furtherMembers members rest)
      have more : nextName false behind =
          .ok (.more (memberTail member ++ (furtherMembers members ++ '\x7d' :: rest))) :=
        nextName_more (by simpa [furtherMembers] using same)
      rw [foldParts_more more read]
      exact ih (by simpa using bound) follows

private theorem toList_intercalate_cons (text : String) (texts : List String) :
    (",".intercalate (text :: texts)).toList =
      text.toList ++ texts.flatMap fun text => ',' :: text.toList := by
  induction texts generalizing text with
  | nil => rw [String.intercalate_singleton, List.flatMap_nil, List.append_nil]
  | cons next texts ih =>
      rw [String.intercalate_cons_cons, String.toList_append, String.toList_append, ih,
        List.flatMap_cons]
      simp

private theorem toList_memberText (member : String × String) :
    (memberText member).toList = '"' :: memberTail member := by
  simp [memberText, memberTail, toList_quote]

private theorem toList_document (member : String × String) (members : List (String × String)) :
    (document (member :: members)).toList =
      '\x7b' :: '"' :: (memberTail member ++ (furtherMembers members ++ ['\x7d'])) := by
  rw [document, String.toList_append, String.toList_append, List.map_cons, toList_intercalate_cons]
  simp [List.flatMap_map, toList_memberText, furtherMembers]

private theorem length_le_furtherMembers (members : List (String × String)) :
    members.length ≤ (furtherMembers members).length := by
  induction members with
  | nil => exact Nat.le_refl 0
  | cons member members ih =>
      simp only [furtherMembers, List.flatMap_cons, List.length_append, List.length_cons] at ih ⊢
      omega

private theorem readObject_members (taken : Partial.TakesAll {} (member :: members) final) :
    readObject ('"' :: (memberTail member ++ (furtherMembers members ++ ['\x7d']))) =
      .ok (final.finish, []) := by
  obtain _ | ⟨first, others⟩ := taken
  obtain ⟨behind, taken, follows⟩ :=
    readOption_of_takes first (endsValue_furtherMembers members [])
  generalize start : memberTail member ++ (furtherMembers members ++ ['\x7d']) = text at taken ⊢
  have more : nextName true ('"' :: text) = .ok (.more text) := rfl
  have bound : members.length < ('"' :: text).length := by
    have := length_le_furtherMembers members
    simp only [← start, List.length_cons, List.length_append]
    omega
  rw [readObject, readParts, foldParts_more more taken, foldParts_of_takesAll others bound follows]
  rfl

private theorem read_document (taken : Partial.TakesAll {} members final) :
    read (document members) = .ok final.finish := by
  have opened : readDocument (document members).toList = .ok (final.finish, []) := by
    cases members with
    | nil =>
        cases taken
        rfl
    | cons member members =>
        rw [toList_document]
        exact readObject_members taken
  rw [read, readWhole, opened]
  rfl

/-! ## The text of options -/

theorem takesAll_written (options : Options) :
    ∃ final, Partial.TakesAll {} (written options.members) final ∧ final.finish = options := by
  obtain ⟨strict, rootKey⟩ := options
  cases rootKey with
  | none => exact ⟨_, .cons (.strict strict rfl) .nil, rfl⟩
  | some key => exact ⟨_, .cons (.strict strict rfl) (.cons (.rootKey key rfl) .nil), rfl⟩

/-- Members of other names can be added anywhere. -/
theorem Partial.TakesAll.add
    (taken : found.TakesAll (members.filter fun member => member.1 ∈ names) final)
    (valid : ∀ member ∈ members, member.1 ∉ names → IsElement member.2.toList) :
    found.TakesAll members final := by
  induction members generalizing found with
  | nil => exact taken
  | cons member members ih =>
      obtain ⟨first, others⟩ := List.forall_mem_cons.mp valid
      by_cases own : member.1 ∈ names
      · rw [List.filter_cons_of_pos (by simpa using own)] at taken
        cases taken with
        | cons taken following => exact .cons taken (ih following others)
      · rw [List.filter_cons_of_neg (by simpa using own)] at taken
        exact .cons (.other own (first own)) (ih taken others)

theorem read_document_of_filter {options : Options}
    (own : (members.filter fun member => member.1 ∈ names) = written options.members)
    (valid : ∀ member ∈ members, member.1 ∉ names → IsElement member.2.toList) :
    read (document members) = .ok options := by
  obtain ⟨final, taken, finished⟩ := takesAll_written options
  rw [← own] at taken
  rw [read_document (taken.add valid), finished]

/-- Values of any kind may be added in their compact form. -/
theorem read_object_of_filter {options : Options} {members : List (String × Value)}
    (own : (members.filter fun member => member.1 ∈ names) = options.members) :
    read (Value.object members).write = .ok options := by
  rw [write_object]
  refine read_document_of_filter ?_ ?_
  · rw [← own, written, written, List.filter_map]
    rfl
  · intro member present _
    obtain ⟨⟨name, value⟩, _, rfl⟩ := List.mem_map.mp present
    exact (isValue_write value).isElement

/-- Options are read back from their text, and from the text that has members of other names
anywhere among theirs. -/
theorem read_write (options : Options) :
    read options.write = .ok options ∧
      options.write = document (written options.members) ∧
      ∀ members : List (String × String),
        (members.filter fun member => member.1 ∈ names) = written options.members →
        (∀ member ∈ members, member.1 ∉ names → IsElement member.2.toList) →
        read (document members) = .ok options := by
  refine ⟨?_, write_object options.members, fun members own valid =>
    read_document_of_filter own valid⟩
  have own : (options.members.filter fun member => member.1 ∈ names) = options.members := by
    obtain ⟨strict, rootKey⟩ := options
    cases rootKey <;> rfl
  exact read_object_of_filter own

/-- The added members repeat a name, and hold a number past the range of binary64 and half of a
surrogate pair. -/
theorem read_write_crowded :
    let options : Options := { strict := true, rootKey := some "a\"\\\x01é" }
    let number := " [-1E+400, \x7b\x7d]\n"
    let text := "\"\\ud800\""
    let members := [("Strict", number), ("strict", "true"), ("", text),
      ("root_key", "\"a\\\"\\\\\\u0001é\""), ("Strict", number)]
    (members.filter fun member => member.1 ∈ names) = written options.members ∧
      IsElement number.toList ∧ IsElement text.toList ∧
      read (document members) = .ok options := by
  intro options number text members
  have own : (members.filter fun member => member.1 ∈ names) = written options.members := by
    decide
  have numbered : IsElement number.toList := by
    have magnitude : IsMagnitude (['1'] ++ ([] ++ 'E' :: (['+'] ++ '4' :: ['0', '0']))) :=
      .parts (.digits (by decide) (by decide) (by decide)) .none
        (.digits (.inr rfl) (.inr (.inl rfl)) (by decide) (by decide))
    have emptied : IsElement ([' '] ++ (('\x7b' :: ([] ++ ['\x7d'])) ++ [])) :=
      .spaced (by decide) (.emptyObject (by decide)) (by decide)
    have spaced : IsElement ([' '] ++ (('[' :: (_ ++ [']'])) ++ ['\n'])) :=
      .spaced (by decide) (.array (.cons (IsValue.number (.negative magnitude)).isElement
        (.last emptied))) (by decide)
    simpa [number] using spaced
  have half : IsElement text.toList := by
    have form : IsValue ('"' :: (['\\', 'u', 'd', '8', '0', '0'] ++ ['"'])) :=
      .string (.unicode (by decide) .nil)
    simpa [text] using form.isElement
  refine ⟨own, numbered, half, (read_write options).2.2 members own ?_⟩
  simp only [members, List.forall_mem_cons, List.not_mem_nil, false_imp_iff, implies_true, and_true]
  exact ⟨fun _ => numbered, fun own => absurd (by decide) own, fun _ => half,
    fun own => absurd (by decide) own, fun _ => numbered⟩

end Options

end DocShape
