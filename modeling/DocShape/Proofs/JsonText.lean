import DocShape.Json.Skip

/-!
# The grammar of JSON text

What may be written for a value, with white space between the tokens, numbers of
any size and containers of any depth. Skipping takes every such text to its end.
-/

set_option autoImplicit false

namespace DocShape.Json

/-! ## The grammar -/

def IsBlank (text : List Char) : Prop :=
  ∀ char ∈ text, isSpace char = true

def AllDigits (text : List Char) : Prop :=
  ∀ char ∈ text, isDigit char = true

instance (text : List Char) : Decidable (IsBlank text) :=
  List.decidableBAll _ text

instance (text : List Char) : Decidable (AllDigits text) :=
  List.decidableBAll _ text

/-- The digits before the point: a leading zero stands alone. -/
inductive IsWhole : List Char → Prop where
  | zero : IsWhole ['0']
  | digits {first : Char} {digits : List Char} :
      isDigit first = true → first ≠ '0' → AllDigits digits → IsWhole (first :: digits)

inductive IsFraction : List Char → Prop where
  | none : IsFraction []
  | digits {first : Char} {digits : List Char} :
      isDigit first = true → AllDigits digits → IsFraction ('.' :: first :: digits)

inductive IsExponent : List Char → Prop where
  | none : IsExponent []
  | digits {mark first : Char} {sign digits : List Char} :
      mark = 'e' ∨ mark = 'E' → sign = [] ∨ sign = ['+'] ∨ sign = ['-'] →
      isDigit first = true → AllDigits digits → IsExponent (mark :: (sign ++ first :: digits))

inductive IsMagnitude : List Char → Prop where
  | parts {whole fraction exponent : List Char} :
      IsWhole whole → IsFraction fraction → IsExponent exponent →
      IsMagnitude (whole ++ (fraction ++ exponent))

inductive IsNumber : List Char → Prop where
  | unsigned {magnitude : List Char} : IsMagnitude magnitude → IsNumber magnitude
  | negative {magnitude : List Char} : IsMagnitude magnitude → IsNumber ('-' :: magnitude)

/-- What stands between the quotation marks of a string. -/
inductive IsChars : List Char → Prop where
  | nil : IsChars []
  | plain {char : Char} {chars : List Char} :
      char ≠ '"' → char ≠ '\\' → isControl char = false → IsChars chars →
      IsChars (char :: chars)
  | escape {char : Char} {chars : List Char} :
      (simpleEscape? char).isSome → IsChars chars → IsChars ('\\' :: char :: chars)
  | unicode {first second third fourth : Char} {chars : List Char} :
      (hexUnit? first second third fourth).isSome → IsChars chars →
      IsChars ('\\' :: 'u' :: first :: second :: third :: fourth :: chars)

mutual

/-- The text of a value, without white space around it. -/
inductive IsValue : List Char → Prop where
  | null : IsValue "null".toList
  | bool (truth : Bool) : IsValue (if truth then "true" else "false").toList
  | number {text : List Char} : IsNumber text → IsValue text
  | string {chars : List Char} : IsChars chars → IsValue ('"' :: (chars ++ ['"']))
  | emptyArray {space : List Char} : IsBlank space → IsValue ('[' :: (space ++ [']']))
  | array {items : List Char} : IsItems items → IsValue ('[' :: (items ++ [']']))
  | emptyObject {space : List Char} : IsBlank space → IsValue ('\x7b' :: (space ++ ['\x7d']))
  | object {members : List Char} : IsMembers members → IsValue ('\x7b' :: (members ++ ['\x7d']))

/-- The text of a value with white space around it. -/
inductive IsElement : List Char → Prop where
  | spaced {before value behind : List Char} :
      IsBlank before → IsValue value → IsBlank behind → IsElement (before ++ (value ++ behind))

inductive IsItems : List Char → Prop where
  | last {item : List Char} : IsElement item → IsItems item
  | cons {item items : List Char} : IsElement item → IsItems items → IsItems (item ++ ',' :: items)

inductive IsMember : List Char → Prop where
  | named {before chars behind value : List Char} :
      IsBlank before → IsChars chars → IsBlank behind → IsElement value →
      IsMember (before ++ '"' :: (chars ++ '"' :: (behind ++ ':' :: value)))

inductive IsMembers : List Char → Prop where
  | last {member : List Char} : IsMember member → IsMembers member
  | cons {member members : List Char} :
      IsMember member → IsMembers members → IsMembers (member ++ ',' :: members)

end

theorem isBlank_nil : IsBlank [] := by
  decide

theorem IsValue.isElement {value : List Char} (form : IsValue value) : IsElement value := by
  simpa using IsElement.spaced isBlank_nil form isBlank_nil

/-! ## What may follow a value -/

def valueEnds : List Char := [' ', '\n', '\t', '\r', ',', ']', '\x7d']

/-- No text of a value goes on with the text. -/
def EndsValue (text : List Char) : Prop :=
  ∀ char ∈ text.head?, char ∈ valueEnds

variable {rest : List Char}

theorem next?_cons {char : Char} (solid : isSpace char = false) (text : List Char) :
    next? (char :: text) = some (char, text) := by
  simp [next?, solid]

private theorem IsBlank.next?_append {space : List Char} (blank : IsBlank space)
    (text : List Char) :
    next? (space ++ text) = next? text := by
  rw [next?, List.dropWhile_append_of_pos blank, next?]

private theorem IsBlank.endsValue_append {space : List Char} (blank : IsBlank space)
    (ends : EndsValue rest) : EndsValue (space ++ rest) := by
  cases space with
  | nil => exact ends
  | cons char space =>
      have solid := blank char List.mem_cons_self
      intro other head
      obtain rfl : char = other := by simpa using head
      simp only [isSpace, Bool.or_eq_true, decide_eq_true_eq] at solid
      rcases solid with ((rfl | rfl) | rfl) | rfl <;> decide

theorem endsValue_cons (char : Char) (text : List Char) (ends : char ∈ valueEnds) :
    EndsValue (char :: text) := by
  simpa [EndsValue] using ends

theorem EndsValue.refuses (ends : EndsValue rest) (accepts : Char → Bool)
    (refused : valueEnds.all (fun char => !accepts char) = true) :
    ∀ char ∈ rest.head?, accepts char = false := by
  intro char head
  simpa using List.all_eq_true.mp refused char (ends char head)

theorem EndsValue.startsWithDigit (ends : EndsValue rest) : startsWithDigit rest = false := by
  have refused := ends.refuses isDigit (by decide)
  cases rest with
  | nil => rfl
  | cons char text => exact refused char rfl

theorem EndsValue.startsExponent (ends : EndsValue rest) : startsExponent rest = false := by
  have refused := ends.refuses (fun char => char = 'e' || char = 'E') (by decide)
  cases rest with
  | nil => rfl
  | cons char text => exact refused char rfl

private theorem EndsValue.ne_point (ends : EndsValue rest) : rest.head? ≠ some '.' := by
  intro point
  exact absurd (ends '.' point) (by decide)

/-! ## Numbers -/

theorem ne_of_isDigit {char : Char} (digit : isDigit char = true) (other : Char)
    (unlike : isDigit other = false) : char ≠ other := by
  rintro rfl
  exact absurd digit (by simp [unlike])

private theorem isSpace_of_isDigit {char : Char} (digit : isDigit char = true) :
    isSpace char = false := by
  simp [isSpace, ne_of_isDigit digit ' ' rfl, ne_of_isDigit digit '\n' rfl,
    ne_of_isDigit digit '\t' rfl, ne_of_isDigit digit '\r' rfl]

private theorem skipDigits_append {digits text : List Char} (all : AllDigits digits)
    (ends : startsWithDigit text = false) : skipDigits (digits ++ text) = text := by
  rw [skipDigits, List.dropWhile_append_of_pos all]
  cases text with
  | nil => rfl
  | cons char text => exact List.dropWhile_cons_of_neg (ne_true_of_eq_false ends)

private theorem readSign_append {sign text : List Char} {first : Char}
    (either : sign = [] ∨ sign = ['+'] ∨ sign = ['-']) (digit : isDigit first = true) :
    (readSign (sign ++ first :: text)).2 = first :: text := by
  rcases either with rfl | rfl | rfl
  · simp [readSign, ne_of_isDigit digit '+' rfl, ne_of_isDigit digit '-' rfl]
  · rfl
  · rfl

private theorem IsExponent.skipOptionalExponent_append {exponent : List Char}
    (form : IsExponent exponent) (ends : EndsValue rest) :
    skipOptionalExponent (exponent ++ rest) = .ok rest := by
  cases form with
  | none => simp [skipOptionalExponent, ends.startsExponent]
  | @digits mark first sign digits marked signed digit all =>
      have starts : startsExponent (mark :: (sign ++ first :: digits) ++ rest) = true := by
        simpa [startsExponent] using marked
      rw [skipOptionalExponent, if_pos starts, List.cons_append, List.drop_one, List.tail_cons,
        List.append_assoc, skipExponent, List.cons_append, readSign_append signed digit]
      simp [digit, skipDigits_append all ends.startsWithDigit]

private theorem IsExponent.startsWithDigit_append {exponent : List Char}
    (form : IsExponent exponent)
    (ends : EndsValue rest) : startsWithDigit (exponent ++ rest) = false := by
  cases form with
  | none => exact ends.startsWithDigit
  | digits marked => rcases marked with rfl | rfl <;> rfl

private theorem IsFraction.startsWithDigit_append {fraction exponent : List Char}
    (form : IsFraction fraction) (scaled : IsExponent exponent) (ends : EndsValue rest) :
    startsWithDigit (fraction ++ (exponent ++ rest)) = false := by
  cases form with
  | none => exact scaled.startsWithDigit_append ends
  | digits => rfl

private theorem IsExponent.skipPoint_append {exponent : List Char} (form : IsExponent exponent)
    (ends : EndsValue rest) : skipPoint (exponent ++ rest) = .ok rest := by
  rw [skipPoint, form.skipOptionalExponent_append ends]
  -- What is left to show is that no point stands in front.
  intro behind starts
  cases form with
  | none => exact ends.ne_point (by simp_all)
  | digits marked =>
      simp only [List.cons_append, List.cons.injEq] at starts
      rcases marked with rfl | rfl <;> exact absurd starts.1 (by decide)

private theorem IsFraction.skipPoint_append {fraction exponent : List Char}
    (form : IsFraction fraction) (scaled : IsExponent exponent) (ends : EndsValue rest) :
    skipPoint (fraction ++ (exponent ++ rest)) = .ok rest := by
  cases form with
  | none => exact scaled.skipPoint_append ends
  | @digits first digits digit all =>
      have starts : startsWithDigit (first :: (digits ++ (exponent ++ rest))) = true := digit
      have all : AllDigits (first :: digits) := List.forall_mem_cons.mpr ⟨digit, all⟩
      rw [List.cons_append, List.cons_append, skipPoint, skipFraction, if_pos starts,
        ← List.cons_append, skipDigits_append all (scaled.startsWithDigit_append ends),
        scaled.skipOptionalExponent_append ends]

private theorem IsMagnitude.skipNumber_append {magnitude : List Char} (form : IsMagnitude magnitude)
    (ends : EndsValue rest) : skipNumber (magnitude ++ rest) = .ok rest := by
  obtain ⟨whole, fraction, exponent⟩ := form
  have stops := fraction.startsWithDigit_append exponent ends
  have skipped := fraction.skipPoint_append exponent ends
  rw [List.append_assoc, List.append_assoc]
  cases whole with
  | zero =>
      have digit : isDigit '0' = true := by decide
      simp [skipNumber, skipNumberFrom, digit, stops, skipped]
  | digits digit nonzero all =>
      simp [skipNumber, skipNumberFrom, digit, nonzero, skipDigits_append all stops, skipped]

/-! ## Strings -/

theorem readHex_of_hexUnit? {first second third fourth : Char} {unit : Nat}
    (value : hexUnit? first second third fourth = some unit) (text : List Char) :
    readHex (first :: second :: third :: fourth :: text) = .ok (unit, text) := by
  simp [readHex, value]

private theorem skipString_escape {text behind : List Char} (taken : skipEscape text = .ok behind) :
    skipString ('\\' :: text) = skipString behind := by
  rw [skipString, if_neg (by decide), if_pos rfl]
  split <;> simp_all

private theorem IsChars.skipString_append {chars : List Char} (form : IsChars chars)
    (rest : List Char) :
    skipString (chars ++ '"' :: rest) = .ok rest := by
  induction form with
  | nil => simp [skipString]
  | plain mark slash control _ ih =>
      rw [List.cons_append, skipString, if_neg mark, if_neg slash, control, if_neg (by simp), ih]
  | @escape char chars simple _ ih =>
      have taken : skipEscape (char :: (chars ++ '"' :: rest)) = .ok (chars ++ '"' :: rest) := by
        rw [skipEscape, if_pos simple]
      exact (skipString_escape taken).trans ih
  | @unicode first second third fourth chars value _ ih =>
      obtain ⟨unit, value⟩ := Option.isSome_iff_exists.mp value
      have taken : skipEscape ('u' :: first :: second :: third :: fourth ::
          (chars ++ '"' :: rest)) = .ok (chars ++ '"' :: rest) := by
        simp [skipEscape, simpleEscape?, readHex_of_hexUnit? value, bind, Except.bind, pure,
          Except.pure]
      exact (skipString_escape taken).trans ih

/-! ## The parts of a container -/

section Parts

variable {α : Type} {next : Bool → List Char → Reading Next}
  {part : α → List Char → Reading (α × List Char)} {budget : Nat} {first : Bool}
  {found found' : α} {start text behind : List Char}

theorem foldParts_closed (closed : next first start = .ok (.closed rest)) :
    foldParts next part (budget + 1) first found start = .ok (found, rest) := by
  simp [foldParts, closed, bind, Except.bind, pure, Except.pure]

theorem foldParts_more (more : next first start = .ok (.more text))
    (taken : part found text = .ok (found', behind)) :
    foldParts next part (budget + 1) first found start =
      foldParts next part budget false found' behind := by
  simp [foldParts, more, taken, bind, Except.bind]

end Parts

private theorem skipToItem_closed {behind : List Char} (same : next? behind = next? (']' :: rest)) :
    skipToItem false behind = .ok (.closed rest) := by
  rw [skipToItem, same]
  rfl

private theorem skipToItem_more {behind text : List Char}
    (same : next? behind = next? (',' :: text)) :
    skipToItem false behind = .ok (.more text) := by
  rw [skipToItem, same]
  rfl

private theorem skipToMember_closed {behind : List Char}
    (same : next? behind = next? ('\x7d' :: rest)) :
    skipToMember false behind = .ok (.closed rest) := by
  rw [skipToMember, same]
  rfl

private theorem skipToMember_more {behind text : List Char}
    (same : next? behind = next? (',' :: text)) :
    skipToMember false behind = skipToName text := by
  rw [skipToMember, same]
  rfl

private theorem skipToName_mark {start text : List Char}
    (same : next? start = next? ('"' :: text)) :
    skipToName start = .ok (.more text) := by
  rw [skipToName, same]
  rfl

theorem readColon_colon {start text : List Char} (same : next? start = next? (':' :: text)) :
    readColon start = .ok text := by
  rw [readColon, same]
  rfl

private theorem skipItem_eq_ok {value : List Char → Reading (List Char)} {text behind : List Char}
    (skipped : value text = .ok behind) : skipItem value () text = .ok ((), behind) := by
  rw [skipItem, skipped]
  rfl

/-! ## Values -/

theorem IsMagnitude.exists_cons {magnitude : List Char} (form : IsMagnitude magnitude) :
    ∃ first digits, magnitude = first :: digits ∧ isDigit first = true := by
  obtain ⟨whole, _, _⟩ := form
  cases whole with
  | zero => exact ⟨_, _, rfl, by decide⟩
  | digits digit => exact ⟨_, _, rfl, digit⟩

/-- The text of a value is not empty, and can be told from the end of an array. -/
theorem IsValue.exists_cons {value : List Char} (form : IsValue value) :
    ∃ first behind, value = first :: behind ∧ isSpace first = false ∧ first ≠ ']' := by
  cases form with
  | null => exact ⟨_, _, rfl, by decide⟩
  | bool truth => cases truth <;> exact ⟨_, _, rfl, by decide⟩
  | number form =>
      cases form with
      | unsigned form =>
          obtain ⟨first, digits, rfl, digit⟩ := form.exists_cons
          exact ⟨_, _, rfl, isSpace_of_isDigit digit, ne_of_isDigit digit _ rfl⟩
      | negative => exact ⟨_, _, rfl, by decide⟩
  | string | emptyArray | array | emptyObject | object => exact ⟨_, _, rfl, by decide⟩

private theorem IsElement.length_pos {element : List Char} (form : IsElement element) :
    0 < element.length := by
  obtain ⟨_, form, _⟩ := form
  obtain ⟨first, behind, rfl, _⟩ := form.exists_cons
  simp only [List.length_append, List.length_cons]
  omega

private theorem IsMember.length_pos {member : List Char} (form : IsMember member) :
    0 < member.length := by
  obtain ⟨_, _, _, _⟩ := form
  simp only [List.length_append, List.length_cons]
  omega

private theorem skipValueWith_congr {container : Char → List Char → Reading (List Char)}
    {text other : List Char} (same : next? text = next? other) :
    skipValueWith container text = skipValueWith container other := by
  rw [skipValueWith, skipValueWith, same]

private theorem skipNested_congr {text other : List Char} (same : next? text = next? other)
    (depth : Nat) : skipNested depth text = skipNested depth other := by
  cases depth <;> exact skipValueWith_congr same

private theorem IsNumber.skipValueWith_append {number : List Char} (form : IsNumber number)
    (ends : EndsValue rest) (container : Char → List Char → Reading (List Char)) :
    skipValueWith container (number ++ rest) = .ok rest := by
  cases form with
  | unsigned form =>
      have taken := form.skipNumber_append ends
      obtain ⟨first, digits, rfl, digit⟩ := form.exists_cons
      rw [List.cons_append, skipNumber] at taken
      simp [skipValueWith, next?_cons (isSpace_of_isDigit digit), digit, taken,
        ne_of_isDigit digit 'n' rfl, ne_of_isDigit digit 't' rfl, ne_of_isDigit digit 'f' rfl,
        ne_of_isDigit digit '-' rfl]
  | negative form =>
      rw [List.cons_append, skipValueWith, next?_cons (by decide)]
      simpa using form.skipNumber_append ends

/-- The first item is not mistaken for the end of the array. -/
theorem IsItems.skipToItem_append {items : List Char} (form : IsItems items)
    (text : List Char) : skipToItem true (items ++ text) = .ok (.more (items ++ text)) := by
  have item : ∀ {element : List Char}, IsElement element → ∀ text,
      skipToItem true (element ++ text) = .ok (.more (element ++ text)) := by
    rintro _ ⟨blank, form, _⟩ text
    obtain ⟨first, behind, rfl, solid, unlike⟩ := form.exists_cons
    simp [skipToItem, blank.next?_append, next?_cons solid, unlike]
  cases form with
  | last form => exact item form text
  | cons form => simpa using item form _

private theorem IsMembers.skipToMember_append {members : List Char} (form : IsMembers members)
    (text : List Char) :
    skipToMember true (members ++ text) = skipToName (members ++ text) := by
  have member : ∀ {member : List Char}, IsMember member → ∀ text,
      skipToMember true (member ++ text) = skipToName (member ++ text) := by
    rintro _ ⟨blank, _, _, _⟩ text
    rw [skipToMember, List.append_assoc, blank.next?_append]
    rfl
  cases form with
  | last form => exact member form text
  | cons form => simpa using member form _

private theorem skipNested_bracket {depth : Nat} {text : List Char} (deep : 0 < depth)
    (taken : readParts skipToItem (skipItem (skipNested (depth - 1))) () text = .ok ((), rest)) :
    skipNested depth ('[' :: text) = .ok rest := by
  obtain ⟨depth, rfl⟩ := Nat.exists_eq_add_one_of_ne_zero (Nat.ne_of_gt deep)
  have opened : skipNested (depth + 1) ('[' :: text) = skipContainer (skipNested depth) '[' text :=
    rfl
  rw [Nat.add_sub_cancel] at taken
  rw [opened, skipContainer, if_pos rfl, taken]
  rfl

private theorem skipNested_brace {depth : Nat} {text : List Char} (deep : 0 < depth)
    (taken : readParts skipToMember (skipMember (skipNested (depth - 1))) () text =
      .ok ((), rest)) :
    skipNested depth ('\x7b' :: text) = .ok rest := by
  obtain ⟨depth, rfl⟩ := Nat.exists_eq_add_one_of_ne_zero (Nat.ne_of_gt deep)
  have opened : skipNested (depth + 1) ('\x7b' :: text) =
      skipContainer (skipNested depth) '\x7b' text := rfl
  rw [Nat.add_sub_cancel] at taken
  rw [opened, skipContainer, if_neg (by decide), taken]
  rfl

/-! A container hands its parts on with one level less. They are shorter than the
container, so a bound by the length of the text is kept on the way down, and is budget
enough for the parts. -/

mutual

private theorem IsValue.skipNested_append {value rest : List Char} {depth : Nat} :
    IsValue value → value.length ≤ depth → EndsValue rest →
    skipNested depth (value ++ rest) = .ok rest
  | .null, _, _ => by
      cases depth <;> simp [skipNested, skipValueWith, next?, isSpace, word, readWord]
  | .bool truth, _, _ => by
      cases depth <;> cases truth <;>
        simp [skipNested, skipValueWith, next?, isSpace, word, readWord]
  | .number form, _, ends => by
      cases depth <;> exact form.skipValueWith_append ends _
  | .string form, _, _ => by
      cases depth <;>
        simp [skipNested, skipValueWith, next?, isSpace, isDigit, form.skipString_append]
  | @IsValue.emptyArray space blank, enough, _ => by
      have closed : skipToItem true (space ++ ']' :: rest) = .ok (.closed rest) := by
        rw [skipToItem, blank.next?_append]
        rfl
      rw [List.length_cons] at enough
      rw [List.cons_append, List.append_assoc]
      exact skipNested_bracket (by omega) (foldParts_closed closed)
  | @IsValue.array items form, enough, _ => by
      have bound : items.length < (items ++ ']' :: rest).length + 1 := by
        rw [List.length_append]
        omega
      simp only [List.length_cons, List.length_append] at enough
      rw [List.cons_append, List.append_assoc]
      exact skipNested_bracket (by omega)
        (form.foldParts_append (by omega) bound (form.skipToItem_append _))
  | @IsValue.emptyObject space blank, enough, _ => by
      have closed : skipToMember true (space ++ '\x7d' :: rest) = .ok (.closed rest) := by
        rw [skipToMember, blank.next?_append]
        rfl
      rw [List.length_cons] at enough
      rw [List.cons_append, List.append_assoc]
      exact skipNested_brace (by omega) (foldParts_closed closed)
  | @IsValue.object members form, enough, _ => by
      have bound : members.length < (members ++ '\x7d' :: rest).length + 1 := by
        rw [List.length_append]
        omega
      simp only [List.length_cons, List.length_append] at enough
      rw [List.cons_append, List.append_assoc]
      exact skipNested_brace (by omega)
        (form.foldParts_append (by omega) bound (form.skipToMember_append _))

private theorem IsElement.skipNested_append {element rest : List Char} {depth : Nat} :
    IsElement element → element.length ≤ depth → EndsValue rest →
    ∃ behind, skipNested depth (element ++ rest) = .ok behind ∧ next? behind = next? rest
  | @IsElement.spaced before value behind blank form blank', enough, ends => by
      simp only [List.length_append] at enough
      refine ⟨behind ++ rest, ?_, blank'.next?_append rest⟩
      rw [List.append_assoc, List.append_assoc, skipNested_congr (blank.next?_append _)]
      exact form.skipNested_append (by omega) (blank'.endsValue_append ends)

private theorem IsItems.foldParts_append {items rest start : List Char} {depth budget : Nat}
    {first : Bool} :
    IsItems items → items.length ≤ depth → items.length < budget →
    skipToItem first start = .ok (.more (items ++ ']' :: rest)) →
    foldParts skipToItem (skipItem (skipNested depth)) budget first () start = .ok ((), rest)
  | .last form, enough, bound, more => by
      -- One more turn has to be left for the bracket behind the item.
      have solid := form.length_pos
      obtain ⟨budget, rfl⟩ : ∃ less, budget = less + 2 := ⟨budget - 2, by omega⟩
      obtain ⟨behind, skipped, same⟩ :=
        form.skipNested_append enough (endsValue_cons ']' rest (by decide))
      rw [foldParts_more more (skipItem_eq_ok skipped), foldParts_closed (skipToItem_closed same)]
  | @IsItems.cons item others form forms, enough, bound, more => by
      simp only [List.length_append, List.length_cons] at enough bound
      obtain ⟨budget, rfl⟩ : ∃ less, budget = less + 1 := ⟨budget - 1, by omega⟩
      have ends := endsValue_cons ',' (others ++ ']' :: rest) (by decide)
      obtain ⟨behind, skipped, same⟩ := form.skipNested_append (by omega : _ ≤ depth) ends
      rw [List.append_assoc, List.cons_append] at more
      rw [foldParts_more more (skipItem_eq_ok skipped)]
      exact forms.foldParts_append (by omega) (by omega) (skipToItem_more same)

private theorem IsMember.skipMember_append {member rest : List Char} {depth : Nat} :
    IsMember member → member.length ≤ depth → EndsValue rest →
    ∃ text behind, skipToName (member ++ rest) = .ok (.more text) ∧
      skipMember (skipNested depth) () text = .ok ((), behind) ∧ next? behind = next? rest
  | @IsMember.named before chars behind value blank named blank' valued, enough, ends => by
      simp only [List.length_append, List.length_cons] at enough
      obtain ⟨after, skipped, same⟩ := valued.skipNested_append (by omega : _ ≤ depth) ends
      refine ⟨chars ++ '"' :: (behind ++ ':' :: (value ++ rest)), after, ?_, ?_, same⟩
      · simp only [List.append_assoc, List.cons_append]
        exact skipToName_mark (blank.next?_append _)
      · have colon := readColon_colon (blank'.next?_append (':' :: (value ++ rest)))
        simp only [skipMember, named.skipString_append, colon, skipped, bind, Except.bind, pure,
          Except.pure]

private theorem IsMembers.foldParts_append {members rest start : List Char} {depth budget : Nat}
    {first : Bool} :
    IsMembers members → members.length ≤ depth → members.length < budget →
    skipToMember first start = skipToName (members ++ '\x7d' :: rest) →
    foldParts skipToMember (skipMember (skipNested depth)) budget first () start = .ok ((), rest)
  | .last form, enough, bound, more => by
      have solid := form.length_pos
      obtain ⟨budget, rfl⟩ : ∃ less, budget = less + 2 := ⟨budget - 2, by omega⟩
      obtain ⟨text, behind, entered, skipped, same⟩ :=
        form.skipMember_append enough (endsValue_cons '\x7d' rest (by decide))
      rw [foldParts_more (more.trans entered) skipped, foldParts_closed (skipToMember_closed same)]
  | @IsMembers.cons member others form forms, enough, bound, more => by
      simp only [List.length_append, List.length_cons] at enough bound
      obtain ⟨budget, rfl⟩ : ∃ less, budget = less + 1 := ⟨budget - 1, by omega⟩
      have ends := endsValue_cons ',' (others ++ '\x7d' :: rest) (by decide)
      obtain ⟨text, behind, entered, skipped, same⟩ :=
        form.skipMember_append (by omega : _ ≤ depth) ends
      rw [List.append_assoc, List.cons_append] at more
      rw [foldParts_more (more.trans entered) skipped]
      exact forms.foldParts_append (by omega) (by omega) (skipToMember_more same)

end

/-- Skipping takes every text of a value to its end. -/
theorem IsElement.skipValue_append {element rest : List Char} (form : IsElement element)
    (ends : EndsValue rest) :
    ∃ behind, skipValue (element ++ rest) = .ok behind ∧ next? behind = next? rest :=
  form.skipNested_append (by simp) ends

end DocShape.Json
