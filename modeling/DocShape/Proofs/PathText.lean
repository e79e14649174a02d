import DocShape.Proofs.Contradictions
import DocShape.Proofs.Sites

/-! Key paths as text. Where no name is empty or holds a dot or a bracket, the steps
of a path can be read off its text from left to right, so that different places in a
document never share a path, under whatever root key. -/

set_option autoImplicit false

namespace DocShape

open Json (Value)

variable {σ τ ρ : Type}

namespace Text

/-- None of the characters stands in the text. -/
def Avoids (chars : List Char) (text : String) : Prop :=
  ∀ char ∈ text.toList, char ∉ chars

instance (chars : List Char) (text : String) : Decidable (Avoids chars text) :=
  List.decidableBAll (fun char => char ∉ chars) text.toList

end Text

/-- A list that ends at the first stop, or with what follows, can be told from what follows. -/
theorem append_inj_of_stop {α : Type} {stop : α → Prop} {left right leftRest rightRest : List α}
    (leftFree : ∀ entry ∈ left, ¬ stop entry) (rightFree : ∀ entry ∈ right, ¬ stop entry)
    (leftStops : ∀ entry ∈ leftRest.head?, stop entry)
    (rightStops : ∀ entry ∈ rightRest.head?, stop entry)
    (same : left ++ leftRest = right ++ rightRest) : left = right ∧ leftRest = rightRest := by
  induction left generalizing right with
  | nil =>
      cases right with
      | nil => exact ⟨rfl, same⟩
      | cons entry right =>
          have stops := leftStops entry (by rw [List.nil_append] at same; simp [same])
          exact absurd stops (rightFree entry List.mem_cons_self)
  | cons entry left ih =>
      cases right with
      | nil =>
          have stops := rightStops entry (by rw [List.nil_append] at same; simp [← same])
          exact absurd stops (leftFree entry List.mem_cons_self)
      | cons other right =>
          obtain ⟨rfl, sameLater⟩ := List.cons.inj same
          obtain ⟨rfl, sameRest⟩ := ih (List.forall_mem_cons.mp leftFree).2
            (List.forall_mem_cons.mp rightFree).2 sameLater
          exact ⟨rfl, sameRest⟩

namespace KeyPath

/-! ## Steps as they are written -/

/-- The characters that set the steps of a path apart. -/
def marks : List Char := ['.', '[', ']']

/-- The name can be told from what stands around it in a path. -/
def PlainName (name : String) : Prop :=
  name ≠ "" ∧ Text.Avoids marks name

instance (name : String) : Decidable (PlainName name) :=
  inferInstanceAs (Decidable (name ≠ "" ∧ Text.Avoids marks name))

/-- A name behind a dot, or a text in brackets. -/
inductive Piece where
  | name (text : String)
  | bracketed (text : String)

namespace Piece

def append (path : String) : Piece → String
  | .name text => join path text
  | .bracketed text => path ++ "[" ++ text ++ "]"

def chars : Piece → List Char
  | .name text => '.' :: text.toList
  | .bracketed text => '[' :: (text.toList ++ [']'])

/-- The piece ends where it seems to end. -/
def Plain : Piece → Prop
  | .name text => PlainName text
  | .bracketed text => ']' ∉ text.toList

variable {path : String}

theorem append_ne_empty (notEmpty : path ≠ "") (piece : Piece) : piece.append path ≠ "" := by
  cases piece with
  | name text => exact extend_ne_empty notEmpty (.member text)
  | bracketed text => simp [append]

theorem toList_append (notEmpty : path ≠ "") (piece : Piece) :
    (piece.append path).toList = path.toList ++ piece.chars := by
  cases piece with
  | name text => simp [append, chars, join_of_ne_empty notEmpty]
  | bracketed text => simp [append, chars]

private theorem head?_flatMap_chars (pieces : List Piece) :
    ∀ char ∈ (pieces.flatMap chars).head?, char ∈ marks := by
  cases pieces with
  | nil => simp
  | cons piece rest => cases piece <;> simp [chars, marks]

/-- A piece can be told from the pieces behind it. -/
theorem chars_append_inj {left right : Piece} (leftPlain : left.Plain) (rightPlain : right.Plain)
    {leftRest rightRest : List Char} (leftMarks : ∀ char ∈ leftRest.head?, char ∈ marks)
    (rightMarks : ∀ char ∈ rightRest.head?, char ∈ marks)
    (same : left.chars ++ leftRest = right.chars ++ rightRest) :
    left = right ∧ leftRest = rightRest := by
  cases left with
  | name text =>
      cases right with
      | name other =>
          obtain ⟨sameText, sameRest⟩ := append_inj_of_stop leftPlain.2 rightPlain.2 leftMarks
            rightMarks (List.cons.inj same).2
          exact ⟨congrArg Piece.name (String.toList_inj.mp sameText), sameRest⟩
      | bracketed other => simp [chars] at same
  | bracketed text =>
      cases right with
      | name other => simp [chars] at same
      | bracketed other =>
          have inside {inner : String} (plain : ']' ∉ inner.toList) :
              ∀ char ∈ inner.toList, char ∉ [']'] := by
            intro char listed closing
            exact plain (List.mem_singleton.mp closing ▸ listed)
          have same : text.toList ++ ']' :: leftRest = other.toList ++ ']' :: rightRest := by
            simpa [chars] using same
          obtain ⟨sameText, sameRest⟩ := append_inj_of_stop (inside leftPlain)
            (inside rightPlain) (by simp) (by simp) same
          exact ⟨congrArg Piece.bracketed (String.toList_inj.mp sameText),
            (List.cons.inj sameRest).2⟩

private theorem flatMap_chars_inj {left right : List Piece}
    (leftPlain : ∀ piece ∈ left, piece.Plain)
    (rightPlain : ∀ piece ∈ right, piece.Plain)
    (same : left.flatMap chars = right.flatMap chars) : left = right := by
  have notNil (piece : Piece) : piece.chars ≠ [] := by cases piece <;> simp [chars]
  induction left generalizing right with
  | nil =>
      cases right with
      | nil => rfl
      | cons other others => simp [notNil] at same
  | cons piece rest ih =>
      cases right with
      | nil => simp [notNil] at same
      | cons other others =>
          obtain ⟨plainHere, plainRest⟩ := List.forall_mem_cons.mp leftPlain
          obtain ⟨plainThere, plainOthers⟩ := List.forall_mem_cons.mp rightPlain
          rw [List.flatMap_cons, List.flatMap_cons] at same
          obtain ⟨rfl, sameRest⟩ := chars_append_inj plainHere plainThere
            (head?_flatMap_chars rest) (head?_flatMap_chars others) same
          rw [ih plainRest plainOthers sameRest]

end Piece

/-! ## Paths as they are written -/

def write (path : String) (pieces : List Piece) : String :=
  pieces.foldl Piece.append path

private theorem toList_write {path : String} (notEmpty : path ≠ "") (pieces : List Piece) :
    (write path pieces).toList = path.toList ++ pieces.flatMap Piece.chars := by
  induction pieces generalizing path with
  | nil => simp [write]
  | cons piece rest ih =>
      have next := ih (Piece.append_ne_empty notEmpty piece)
      rw [Piece.toList_append notEmpty, List.append_assoc] at next
      exact next

/-- The dot that a path lacks where no path stands before it. Such a path begins with a
bracket or else with a name. -/
def missingDot : List Char → List Char
  | [] => []
  | char :: _ => if char = '[' then [] else ['.']

private theorem missingDot_append {pieces : List Piece} (plain : ∀ piece ∈ pieces, piece.Plain) :
    missingDot (write "" pieces).toList ++ (write "" pieces).toList =
      pieces.flatMap Piece.chars := by
  cases pieces with
  | nil => rfl
  | cons piece rest =>
      have plainHere := (List.forall_mem_cons.mp plain).1
      cases piece with
      | name text =>
          have written : (write "" (.name text :: rest)).toList =
              text.toList ++ rest.flatMap Piece.chars := toList_write plainHere.1 rest
          obtain ⟨char, later, split⟩ := List.exists_cons_of_ne_nil
            (mt String.toList_eq_nil_iff.mp plainHere.1)
          have begins : char ≠ '[' := by
            rintro rfl
            exact plainHere.2 '[' (split ▸ List.mem_cons_self) (by decide)
          simp [written, split, missingDot, begins, Piece.chars]
      | bracketed text =>
          have written : (write "" (.bracketed text :: rest)).toList =
              (Piece.append "" (.bracketed text)).toList ++ rest.flatMap Piece.chars :=
            toList_write (by simp [Piece.append]) rest
          simp [written, Piece.append, missingDot, Piece.chars]

/-- Plain pieces can be read off the path. -/
theorem write_inj (path : String) {left right : List Piece}
    (leftPlain : ∀ piece ∈ left, piece.Plain) (rightPlain : ∀ piece ∈ right, piece.Plain)
    (same : write path left = write path right) : left = right := by
  apply Piece.flatMap_chars_inj leftPlain rightPlain
  by_cases empty : path = ""
  · subst empty
    rw [← missingDot_append leftPlain, same, missingDot_append rightPlain]
  · have chars := congrArg String.toList same
    rw [toList_write empty, toList_write empty] at chars
    exact List.append_cancel_left chars

/-! ## Locations and declared places -/

end KeyPath

def Segment.piece : Segment → KeyPath.Piece
  | .member name => .name name
  | .item index => .bracketed (toString index)

def Marker.piece : Marker → KeyPath.Piece
  | .member name => .name name
  | .items => .bracketed ""

theorem KeyPath.index_inj {left right : Nat} (same : toString left = toString right) :
    left = right := by
  have digits : Nat.toDigits 10 left = Nat.toDigits 10 right := by
    simpa [Nat.repr_eq_ofList_toDigits] using congrArg String.toList same
  have read (number : Nat) : Nat.ofDigitChars 10 (Nat.toDigits 10 number) 0 = number :=
    Nat.ofDigitChars_toDigits (by decide) (by decide)
  rw [← read left, digits, read right]

theorem Segment.piece_injective : Function.Injective Segment.piece := by
  intro left right same
  cases left with
  | member name => cases right <;> simp_all [piece]
  | item index =>
      cases right with
      | member name => simp [piece] at same
      | item other =>
          exact congrArg Segment.item (KeyPath.index_inj (KeyPath.Piece.bracketed.inj same))

theorem Marker.piece_injective : Function.Injective Marker.piece := by
  intro left right same
  cases left <;> cases right <;> simp_all [piece]

namespace KeyPath

private theorem render_eq_write (path : String) (location : Location) :
    render path location = write path (location.map Segment.piece) := by
  rw [write, List.foldl_map, render]
  congr 1
  funext path segment
  cases segment <;> rfl

private theorem foldl_mark_eq_write (path : String) (markers : List Marker) :
    markers.foldl mark path = write path (markers.map Marker.piece) := by
  rw [write, List.foldl_map]
  congr 1
  funext path marker
  cases marker with
  | member name => rfl
  | items => simp [mark, anyItem, Marker.piece, Piece.append, String.append_assoc]

/-- No name on the way needs to be told from what stands around it. -/
def PlainLocation (location : Location) : Prop :=
  ∀ name, .member name ∈ location → PlainName name

def PlainMarkers (markers : List Marker) : Prop :=
  ∀ name, .member name ∈ markers → PlainName name

theorem PlainLocation.pieces {location : Location} (plain : PlainLocation location) :
    ∀ piece ∈ location.map Segment.piece, piece.Plain := by
  intro piece listed
  obtain ⟨segment, onWay, rfl⟩ := List.mem_map.mp listed
  cases segment with
  | member name => exact plain name onWay
  | item index =>
      intro closing
      have digits : ']' ∈ Nat.toDigits 10 index := by
        simpa [Nat.repr_eq_ofList_toDigits] using closing
      exact absurd (Nat.isDigit_of_mem_toDigits (by decide) (by decide) digits) (by decide)

theorem PlainMarkers.pieces {markers : List Marker} (plain : PlainMarkers markers) :
    ∀ piece ∈ markers.map Marker.piece, piece.Plain := by
  intro piece listed
  obtain ⟨marker, onWay, rfl⟩ := List.mem_map.mp listed
  cases marker with
  | member name => exact plain name onWay
  | items => simp [Marker.piece, Piece.Plain]

theorem render_inj (path : String) {left right : Location} (leftPlain : PlainLocation left)
    (rightPlain : PlainLocation right) (same : render path left = render path right) :
    left = right := by
  rw [render_eq_write, render_eq_write] at same
  exact List.map_injective_iff.mpr Segment.piece_injective
    (write_inj path leftPlain.pieces rightPlain.pieces same)

theorem foldl_mark_inj (path : String) {left right : List Marker}
    (leftPlain : PlainMarkers left) (rightPlain : PlainMarkers right)
    (same : left.foldl mark path = right.foldl mark path) : left = right := by
  rw [foldl_mark_eq_write, foldl_mark_eq_write] at same
  exact List.map_injective_iff.mpr Marker.piece_injective
    (write_inj path leftPlain.pieces rightPlain.pieces same)

end KeyPath

/-! ## Where violations lie -/

theorem Contradicts.mem_names {strict : Bool} {field : Field ρ} {document : Value}
    {location : Location} {refusal : Refusal}
    (contradicts : Contradicts strict field document location refusal) {name : String}
    (onWay : .member name ∈ location) : name ∈ field.kind.names ∨ refusal = .unexpected name := by
  cases contradicts with
  | wrongKind place => exact .inl (place.mem_names onWay)
  | null place => exact .inl (place.mem_names onWay)
  | lacking place => exact .inl (place.mem_names onWay)
  | unexpected _ place =>
      rcases List.mem_append.mp onWay with above | last
      · exact .inl (place.mem_names above)
      · cases List.mem_singleton.mp last
        exact .inr rfl

/-- The violation is what the location contradicts the schema in, named by its key path. -/
def Violation.LiesAt (violation : Violation) (options : Options) (schema : Schema ρ)
    (document : Value) (location : Location) : Prop :=
  ∃ refusal : Refusal, violation = refusal.violation (KeyPath.render options.path location) ∧
    Contradicts options.strict (Field.object schema) document location refusal

/-- A validation that rejects an object, where neither the schema nor the violation
names a member that cannot be told from what stands around it in a path. -/
structure PlainRejection (schema : Schema (Resolver σ)) (options : Options)
    (members : List (String × Value)) (state : σ) (violation : Violation) : Prop where
  unique : schema.UniqueNames
  declared : ∀ name ∈ schema.names, KeyPath.PlainName name
  stray : ∀ path name, violation = .unexpected path name → KeyPath.PlainName name
  rejected : ∃ final, (validate schema options (.object members)).run state =
    (.error (.rejected violation), final)

theorem Refusal.path_violation (refusal : Refusal) (path : String) :
    (refusal.violation path).path = path := by
  cases refusal <;> rfl

theorem Violation.LiesAt.path {violation : Violation} {options : Options} {schema : Schema ρ}
    {document : Value} {location : Location}
    (lies : violation.LiesAt options schema document location) :
    violation.path = KeyPath.render options.path location := by
  obtain ⟨refusal, rfl, -⟩ := lies
  exact refusal.path_violation _

section

variable {schema : Schema (Resolver σ)} {options : Options} {members : List (String × Value)}
  {state : σ} {violation : Violation}

theorem PlainRejection.exists_liesAt
    (rejection : PlainRejection schema options members state violation) :
    ∃ location, violation.LiesAt options schema (.object members) location := by
  obtain ⟨final, rejected⟩ := rejection.rejected
  obtain ⟨calls, validates⟩ := exists_validates_of_run rejection.unique rejected
  cases validates with
  | notObject _ other => exact absurd rfl (other members)
  | performed _ runs => exact Schema.contradicts_of_rejected runs

theorem PlainRejection.plainLocation
    (rejection : PlainRejection schema options members state violation) {location : Location}
    (lies : violation.LiesAt options schema (.object members) location) :
    KeyPath.PlainLocation location := by
  intro name onWay
  obtain ⟨refusal, same, contradicts⟩ := lies
  rcases contradicts.mem_names onWay with declared | rfl
  · exact rejection.declared name declared
  · exact rejection.stray _ name same

end

/-- Behind any root key, places are told apart by their paths: the locations in documents,
the declared places of a listing, and so what two validations reject. The document itself
is no such place; without a root key, it is named as a member of its own may be. -/
theorem keyPath_determines_place (rootKey : Option String) :
    (∀ left right : Location, KeyPath.PlainLocation left → KeyPath.PlainLocation right →
      left ≠ right →
        KeyPath.render (rootKey.getD "") left ≠ KeyPath.render (rootKey.getD "") right) ∧
    (∀ left right : List Marker, KeyPath.PlainMarkers left → KeyPath.PlainMarkers right →
      left ≠ right →
        left.foldl KeyPath.mark (rootKey.getD "") ≠ right.foldl KeyPath.mark (rootKey.getD "")) ∧
    (∀ (schema : Schema (Resolver σ)) (other : Schema (Resolver τ)) (strict otherStrict : Bool)
      (members otherMembers : List (String × Value)) (state : σ) (otherState : τ)
      (violation otherViolation : Violation),
      PlainRejection schema ⟨strict, rootKey⟩ members state violation →
      PlainRejection other ⟨otherStrict, rootKey⟩ otherMembers otherState otherViolation →
        (∃ here, violation.LiesAt ⟨strict, rootKey⟩ schema (.object members) here) ∧
        (∃ there, otherViolation.LiesAt ⟨otherStrict, rootKey⟩ other (.object otherMembers) there) ∧
        ∀ here there, violation.LiesAt ⟨strict, rootKey⟩ schema (.object members) here →
          otherViolation.LiesAt ⟨otherStrict, rootKey⟩ other (.object otherMembers) there →
          here ≠ there → violation.path ≠ otherViolation.path) := by
  refine ⟨?locations, ?markers, ?violations⟩
  case locations =>
    intro left right leftPlain rightPlain different same
    exact different (KeyPath.render_inj _ leftPlain rightPlain same)
  case markers =>
    intro left right leftPlain rightPlain different same
    exact different (KeyPath.foldl_mark_inj _ leftPlain rightPlain same)
  case violations =>
    intro schema other strict otherStrict members otherMembers state otherState violation
      otherViolation rejection otherRejection
    refine ⟨rejection.exists_liesAt, otherRejection.exists_liesAt, ?_⟩
    intro here there lies otherLies different same
    rw [lies.path, otherLies.path] at same
    exact different (KeyPath.render_inj _ (rejection.plainLocation lies)
      (otherRejection.plainLocation otherLies) same)

/-- The grade of one answer is of the wrong kind, the text of another one is missing. -/
theorem keyPath_determines_place_survey :
    let members : List (String × Value) := [("marks", .array []),
      ("answers", .array [.object [("text", .string "yes"), ("grade", .bool true)]])]
    let otherMembers : List (String × Value) := [("marks", .array []),
      ("answers", .array [.object [("text", .string "yes")], .object []])]
    let violation : Violation := .wrongKind "form.answers[0].grade" "number" (.bool true)
    let otherViolation : Violation := .missing "form.answers[1].text"
    PlainRejection Schema.survey ⟨true, some "form"⟩ members 0 violation ∧
      PlainRejection Schema.survey ⟨false, some "form"⟩ otherMembers 7 otherViolation ∧
      violation.path ≠ otherViolation.path ∧
      KeyPath.render "form" [.member "marks", .item 1] ≠
        KeyPath.render "form" [.member "marks", .item 10] ∧
      [Marker.member "answers", .items, .member "text"].foldl KeyPath.mark "form" ≠
        [Marker.member "answers", .items].foldl KeyPath.mark "form" := by
  intro members otherMembers violation otherViolation
  have unique : Schema.survey.UniqueNames := by decide
  have rejection : PlainRejection Schema.survey ⟨true, some "form"⟩ members 0 violation :=
    ⟨unique, by decide, fun _ _ same => (nomatch same), 0, rfl⟩
  have otherRejection :
      PlainRejection Schema.survey ⟨false, some "form"⟩ otherMembers 7 otherViolation :=
    ⟨unique, by decide, fun _ _ same => (nomatch same), 7, rfl⟩
  have lies : violation.LiesAt ⟨true, some "form"⟩ Schema.survey (.object members)
      [.member "answers", .item 0, .member "grade"] := by
    refine ⟨.wrongKind "number" (.bool true), rfl, ?_⟩
    exact .wrongKind (.member (.tail _ (.head _)) (.item (.member (.tail _ (.head _)) .here)))
      rfl (by simp) Bool.false_ne_true
  have otherLies : otherViolation.LiesAt ⟨false, some "form"⟩ Schema.survey
      (.object otherMembers) ([.member "answers", .item 1] ++ [.member "text"]) := by
    refine ⟨.missing, rfl, ?_⟩
    exact .lacking (.member (.tail _ (.head _)) (.item (.member (.head _) .here))) rfl rfl
      (by simp [Entries.names])
  obtain ⟨locations, markers, violations⟩ :=
    keyPath_determines_place (σ := Nat) (τ := Nat) (some "form")
  obtain ⟨-, -, apart⟩ := violations _ _ _ _ _ _ _ _ _ _ rejection otherRejection
  have marks : KeyPath.PlainName "marks" := by decide
  have answers : KeyPath.PlainName "answers" := by decide
  have text : KeyPath.PlainName "text" := by decide
  refine ⟨rejection, otherRejection, apart _ _ lies otherLies (by decide), ?_, ?_⟩
  · apply locations _ _ _ _ (by decide) <;> simp [KeyPath.PlainLocation, marks]
  · apply markers _ _ _ _ (by decide) <;> simp [KeyPath.PlainMarkers, answers, text]

example : Options.documentPlace ⟨false, none⟩ = KeyPath.render "" [.member "$root"] := rfl

end DocShape
