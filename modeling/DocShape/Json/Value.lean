import DocShape.Entries
import DocShape.Json.Number

/-!
# JSON values

Objects keep their members in the order of insertion. Two values agree when
they have the same shape, the same names at every object, in whatever order,
and numbers that a given comparison takes to be alike.
-/

set_option autoImplicit false

namespace DocShape.Json

inductive Value where
  | null
  | bool (truth : Bool)
  | number (value : Number)
  | string (text : String)
  | array (items : List Value)
  | object (members : List (String × Value))

namespace Value

instance : Inhabited Value := ⟨.null⟩

def isNull : Value → Bool
  | .null => true
  | _ => false

mutual

def agree (alike : Number → Number → Bool) : Value → Value → Bool
  | .null, .null => true
  | .bool left, .bool right => left == right
  | .number left, .number right => alike left right
  | .string left, .string right => left == right
  | .array left, .array right => agreeItems alike left right
  | .object left, .object right =>
      left.length == right.length && agreeMembers alike left right
  | _, _ => false

def agreeItems (alike : Number → Number → Bool) : List Value → List Value → Bool
  | [], [] => true
  | left :: lefts, right :: rights => agree alike left right && agreeItems alike lefts rights
  | _, _ => false

/-- Whether each member on the left has one of the same name on the right that
agrees with it. -/
def agreeMembers (alike : Number → Number → Bool) :
    List (String × Value) → List (String × Value) → Bool
  | [], _ => true
  | (name, left) :: lefts, rights =>
      (match Entries.get? name rights with
        | some right => agree alike left right
        | none => false) && agreeMembers alike lefts rights

end

/-- Equality of values; an integer differs from every floating point number. -/
def equal (left right : Value) : Bool :=
  agree Number.equal left right

/-- Equality up to the form of numbers, so that `5` and `5.0` are the same. -/
def sameValue (left right : Value) : Bool :=
  agree Number.sameNumber left right

mutual

/-- No object anywhere in the value repeats a name. -/
def UniqueNames : Value → Prop
  | .array items => UniqueNamesItems items
  | .object members => (Entries.names members).Nodup ∧ UniqueNamesMembers members
  | _ => True

def UniqueNamesItems : List Value → Prop
  | [] => True
  | item :: items => UniqueNames item ∧ UniqueNamesItems items

def UniqueNamesMembers : List (String × Value) → Prop
  | [] => True
  | (_, value) :: members => UniqueNames value ∧ UniqueNamesMembers members

end

mutual

def decideUniqueNames : (value : Value) → Decidable value.UniqueNames
  | .array items => decideUniqueNamesItems items
  | .object members => @instDecidableAnd _ _ inferInstance (decideUniqueNamesMembers members)
  | .null | .bool _ | .number _ | .string _ => .isTrue trivial

def decideUniqueNamesItems : (items : List Value) → Decidable (UniqueNamesItems items)
  | [] => .isTrue trivial
  | item :: items => @instDecidableAnd _ _ item.decideUniqueNames (decideUniqueNamesItems items)

def decideUniqueNamesMembers :
    (members : List (String × Value)) → Decidable (UniqueNamesMembers members)
  | [] => .isTrue trivial
  | (_, value) :: members =>
      @instDecidableAnd _ _ value.decideUniqueNames (decideUniqueNamesMembers members)

end

instance (value : Value) : Decidable value.UniqueNames := value.decideUniqueNames

/-- A value in which no object repeats a name, as every value is that was built by
inserting members. -/
abbrev Distinct : Type := { value : Value // value.UniqueNames }

end Value

end DocShape.Json
