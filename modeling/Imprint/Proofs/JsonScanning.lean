/-
Module: Imprint.Proofs.JsonScanning
Purpose: The tokens of printed JSON. A text spells tokens when the scanner reads them from it in front
  of anything that ends a word or number. Both layouts of a value spell the same tokens, if all its
  numbers survive.
Main exports: Token.Spells, Json.tokens, Json.numbers, Json.spells_compact, Json.spells_indented
-/
import Imprint.Proofs.NumberTexts
import Imprint.Json.Token

namespace Imprint

namespace Token

namespace Scanner

/-- The tokens after the rest of a text, the last one first. -/
def finish? (scanner : Scanner) (cs : List Char) : Option (List Token) :=
  (cs.foldlM step? scanner).bind close?

/-- Scanning a character is taking a step. -/
theorem finish?_cons {scanner next : Scanner} {c : Char} (step : scanner.step? c = some next)
    (rest : List Char) : scanner.finish? (c :: rest) = next.finish? rest := by
  rw [finish?, List.foldlM_cons, step]
  rfl

/-- A word or number that can end ends with the first character that is not its own. -/
theorem finish?_of_close? {scanner : Scanner} {tokens : List Token} {rest : List Char}
    (closed : scanner.close? = some tokens)
    (ends : ∀ c ∈ rest.head?, scanner.step? c = begin? tokens c) :
    scanner.finish? rest = finish? ⟨.between, tokens⟩ rest := by
  cases rest with
  | nil => exact closed
  | cons c more =>
      rw [finish?, List.foldlM_cons, ends c rfl]
      rfl

/-- An open word or number takes in all characters that are its own. -/
theorem finish?_run {place : List Char → Place} {own : Char → Bool}
    (steps : ∀ reversed before c, own c →
      step? ⟨place reversed, before⟩ c = some ⟨place (c :: reversed), before⟩)
    {cs : List Char} (owned : ∀ c ∈ cs, own c) (reversed : List Char) (before : List Token)
    (rest : List Char) :
    finish? ⟨place reversed, before⟩ (cs ++ rest) =
      finish? ⟨place (cs.reverse ++ reversed), before⟩ rest := by
  induction cs generalizing reversed with
  | nil => rfl
  | cons c more ih =>
      have step := steps reversed before c (owned c List.mem_cons_self)
      rw [List.cons_append, finish?_cons step, ih fun c mem => owned c (List.mem_cons_of_mem _ mem)]
      simp

/-- A digit or a minus sign begins a number. -/
theorem step?_numeral {c : Char} (first : c.isDigit ∨ c = '-') (before : List Token) :
    step? ⟨.between, before⟩ c = some ⟨.numeral [c], before⟩ := by
  rcases first with digit | rfl
  · have ne (other : Char) (letter : other.isDigit = false) : c ≠ other := by
      rintro rfl
      rw [digit] at letter
      cases letter
    have space : isBlank c = false := by
      simp [isBlank, ne ' ' rfl, ne '\t' rfl, ne '\n' rfl, ne '\r' rfl]
    have numeral : isNumeralChar c = true := by simp [isNumeralChar, digit]
    simp [step?, begin?, space, numeral, ne '"' rfl, ne 'e' rfl, ne 'E' rfl]
  · rfl

/-! ### Strings -/

/-- The scanner inside a string whose content so far has no escaped surrogates. -/
def inString (reversed : List Char) (before : List Token) : Scanner :=
  ⟨.string ⟨reversed, none, true⟩, before⟩

/-- A control character that was escaped is put in as it is. -/
theorem pushUnit_control {c : Char} (control : c < ' ') (reversed : List Char) :
    Content.pushUnit ⟨reversed, none, true⟩ c.toNat = ⟨c :: reversed, none, true⟩ := by
  have small : c.toNat < 32 := control
  have upper : Content.isUpper c.toNat = false := by
    simp only [Content.isUpper, Bool.and_eq_false_iff, decide_eq_false_iff_not]
    omega
  have lower : Content.isLower c.toNat = false := by
    simp only [Content.isLower, Bool.and_eq_false_iff, decide_eq_false_iff_not]
    omega
  simp [Content.pushUnit, upper, lower, Content.push]

/-- The hexadecimal escape of a control character. -/
theorem finish?_control {c : Char} (control : c < ' ') (reversed : List Char) (before : List Token)
    (rest : List Char) :
    finish? (inString reversed before)
        ('\\' :: 'u' :: '0' :: '0' :: Json.hexDigit (c.toNat / 16) :: Json.hexDigit c.toNat :: rest) =
      finish? (inString (c :: reversed) before) rest := by
  have small : c.toNat < 32 := control
  have digits : ∀ n < 32, hexDigit? (Json.hexDigit (n / 16)) = some (n / 16) ∧
      hexDigit? (Json.hexDigit n) = some (n % 16) := by decide
  obtain ⟨upper, lower⟩ := digits c.toNat small
  have third : step? ⟨.unit ⟨reversed, none, true⟩ 0 2, before⟩ (Json.hexDigit (c.toNat / 16)) =
      some ⟨.unit ⟨reversed, none, true⟩ (c.toNat / 16) 3, before⟩ := by
    simp [step?, upper]
  have fourth : step? ⟨.unit ⟨reversed, none, true⟩ (c.toNat / 16) 3, before⟩
      (Json.hexDigit c.toNat) = some (inString (c :: reversed) before) := by
    have value : 16 * (c.toNat / 16) + c.toNat % 16 = c.toNat := Nat.div_add_mod _ _
    simp [step?, lower, value, pushUnit_control control, inString]
  calc finish? (inString reversed before) _
      = finish? ⟨.unit ⟨reversed, none, true⟩ 0 2, before⟩
          (Json.hexDigit (c.toNat / 16) :: Json.hexDigit c.toNat :: rest) := rfl
    _ = finish? ⟨.unit ⟨reversed, none, true⟩ (c.toNat / 16) 3, before⟩
          (Json.hexDigit c.toNat :: rest) := finish?_cons third _
    _ = finish? (inString (c :: reversed) before) rest := finish?_cons fourth _

/-- What stands for a character inside quotes is read as that character. -/
theorem finish?_escape (c : Char) (reversed : List Char) (before : List Token) (rest : List Char) :
    finish? (inString reversed before) (Json.escape c ++ rest) =
      finish? (inString (c :: reversed) before) rest := by
  unfold Json.escape
  -- Seven characters have an escape of one letter, which is read by evaluation.
  iterate 7
    split
    · subst c
      rfl
  rename_i quote backslash _ _ _ _ _
  split
  · rename_i control
    exact finish?_control control reversed before rest
  · rename_i printable
    apply finish?_cons
    simp [inString, step?, string?, quote, backslash, printable, Content.push]

/-- Escaped characters are put into a string one after the other. -/
theorem finish?_escapes (cs reversed : List Char) (before : List Token) (rest : List Char) :
    finish? (inString reversed before) (cs.flatMap Json.escape ++ rest) =
      finish? (inString (cs.reverse ++ reversed) before) rest := by
  induction cs generalizing reversed with
  | nil => rfl
  | cons c more ih =>
      rw [List.flatMap_cons, List.append_assoc, finish?_escape, ih]
      simp

end Scanner

/-! ### What texts spell -/

/-- A text that can follow a word or number: its first character belongs to neither. -/
def Ends (rest : List Char) : Prop := ∀ c ∈ rest.head?, isNumeralChar c = false ∧ c.isAlpha = false

/-- Two texts that can follow a word or number can do so one after the other. -/
theorem Ends.append {first second : List Char} (ends : Ends first) (other : Ends second) :
    Ends (first ++ second) := by
  cases first with
  | nil => exact other
  | cons c rest => exact ends

theorem ends_nil : Ends [] := by
  rintro _ ⟨⟩

/-- What begins with a punctuation sign can follow a word or number. -/
theorem ends_punctuation {c : Char} {token : Token} (sign : punctuation? c = some token)
    (rest : List Char) : Ends (c :: rest) := by
  rintro _ ⟨⟩
  unfold punctuation? at sign
  split at sign <;> cases sign <;> decide

/-- So can blanks, or nothing. -/
theorem ends_blanks {blanks : List Char} (blank : ∀ c ∈ blanks, isBlank c) : Ends blanks := by
  cases blanks with
  | nil => exact ends_nil
  | cons c rest =>
      rintro _ ⟨⟩
      have kinds : ((c = ' ' ∨ c = '\t') ∨ c = '\n') ∨ c = '\r' := by
        simpa [isBlank] using blank c List.mem_cons_self
      rcases kinds with ((rfl | rfl) | rfl) | rfl <;> decide

open Scanner in
/-- In front of what ends a word or number, the scanner reads the tokens from the text. -/
def Spells (source : List Char) (tokens : List Token) : Prop :=
  ∀ before rest, Ends rest →
    finish? ⟨.between, before⟩ (source ++ rest) = finish? ⟨.between, tokens.reverse ++ before⟩ rest

/-- A source text that spells tokens is scanned as them. -/
theorem ofChars?_of_spells {source : List Char} {tokens : List Token}
    (spells : Spells source tokens) : ofChars? source = some tokens := by
  have read : Scanner.start.finish? source = some tokens.reverse := by
    have whole := spells [] [] ends_nil
    rw [List.append_nil, List.append_nil] at whole
    exact whole
  calc ofChars? source
      = (Scanner.start.finish? source).map List.reverse := (Option.map_bind ..).symm
    _ = some tokens := by rw [read, Option.map_some, List.reverse_reverse]

namespace Spells

variable {source other blanks : List Char} {tokens others : List Token} {token : Token}

theorem nil : Spells [] [] := fun _ _ _ => rfl

/-- A punctuation sign in front adds its token. -/
theorem punctuation {c : Char} (sign : punctuation? c = some token)
    (spells : Spells source tokens) : Spells (c :: source) (token :: tokens) := by
  intro before rest ends
  have step : Scanner.step? ⟨.between, before⟩ c = some ⟨.between, token :: before⟩ := by
    unfold punctuation? at sign
    split at sign <;> cases sign <;> rfl
  rw [List.cons_append, Scanner.finish?_cons step, spells _ rest ends]
  simp

/-- Blanks in front add nothing. -/
theorem blank (blank : ∀ c ∈ blanks, isBlank c) (spells : Spells source tokens) :
    Spells (blanks ++ source) tokens := by
  induction blanks with
  | nil => exact spells
  | cons c more ih =>
      intro before rest ends
      have step : Scanner.step? ⟨.between, before⟩ c = some ⟨.between, before⟩ :=
        if_pos (blank c List.mem_cons_self)
      rw [List.cons_append, List.cons_append, Scanner.finish?_cons step]
      exact ih (fun c mem => blank c (List.mem_cons_of_mem _ mem)) before rest ends

/-- One text after another, if the second ends the last word or number of the first. -/
theorem append (first : Spells source tokens) (second : Spells other others) (ends : Ends other) :
    Spells (source ++ other) (tokens ++ others) := by
  intro before rest after
  rw [List.append_assoc, first before _ (ends.append after), second _ rest after]
  simp

/-- Between brackets, with blanks before the closing one. -/
theorem enclosed {opening closing : Char} {left right : Token}
    (opens : punctuation? opening = some left) (closes : punctuation? closing = some right)
    (blank : ∀ c ∈ blanks, isBlank c) (inner : Spells source tokens) :
    Spells (opening :: (source ++ (blanks ++ [closing]))) (left :: (tokens ++ [right])) := by
  apply punctuation opens
  apply inner.append
  · exact (nil.punctuation closes).blank blank
  · exact (ends_blanks blank).append (ends_punctuation closes [])

theorem bracketed (blank : ∀ c ∈ blanks, isBlank c) (inner : Spells source tokens) :
    Spells ('[' :: (source ++ (blanks ++ [']']))) (.openArray :: (tokens ++ [.closeArray])) :=
  enclosed rfl rfl blank inner

theorem braced (blank : ∀ c ∈ blanks, isBlank c) (inner : Spells source tokens) :
    Spells ('\x7b' :: (source ++ (blanks ++ ['\x7d'])))
      (.openObject :: (tokens ++ [.closeObject])) :=
  enclosed rfl rfl blank inner

/-- Two parts with a comma between them. -/
theorem listed (first : Spells source tokens) (second : Spells other others) :
    Spells (source ++ ',' :: other) (tokens ++ .comma :: others) := by
  apply first.append
  · exact second.punctuation rfl
  · exact ends_punctuation rfl other

/-- A member: its key, a colon with blanks after it, and its value. -/
theorem member {key : List Char} {name : Token} (named : Spells key [name])
    (blank : ∀ c ∈ blanks, isBlank c) (value : Spells source tokens) :
    Spells (key ++ ':' :: (blanks ++ source)) (name :: .colon :: tokens) := by
  apply named.append
  · exact (value.blank blank).punctuation rfl
  · exact ends_punctuation rfl _

end Spells

open Scanner in
/-- A word or number is read as its token: it begins with its first character, takes in the others,
and closes in front of what ends it. -/
theorem spells_run (place : List Char → Place) (own : Char → Bool)
    (steps : ∀ reversed before c, own c →
      step? ⟨place reversed, before⟩ c = some ⟨place (c :: reversed), before⟩)
    {c : Char} {cs : List Char} {token : Token}
    (begins : ∀ before, step? ⟨.between, before⟩ c = some ⟨place [c], before⟩)
    (owned : ∀ c ∈ cs, own c)
    (closes : ∀ before, close? ⟨place (cs.reverse ++ [c]), before⟩ = some (token :: before))
    (ends : ∀ before next, isNumeralChar next = false → next.isAlpha = false →
      step? ⟨place (cs.reverse ++ [c]), before⟩ next = begin? (token :: before) next) :
    Spells (c :: cs) [token] := by
  intro before rest after
  rw [List.cons_append, finish?_cons (begins before), finish?_run steps owned]
  apply finish?_of_close? (closes before)
  intro next first
  obtain ⟨numeral, alpha⟩ := after next first
  exact ends before next numeral alpha

/-- A word that is known spells its token. -/
theorem spells_word {c : Char} {letters : List Char} {token : Token}
    (begins : ∀ before, Scanner.step? ⟨.between, before⟩ c = some ⟨.word [c], before⟩)
    (alpha : letters.all Char.isAlpha) (known : word? (c :: letters) = some token) :
    Spells (c :: letters) [token] := by
  have closes (before : List Token) :
      Scanner.close? ⟨.word (letters.reverse ++ [c]), before⟩ = some (token :: before) := by
    simp [Scanner.close?, known]
  apply spells_run .word Char.isAlpha
  · intro reversed before c letter
    exact if_pos letter
  · exact begins
  · exact List.all_eq_true.mp alpha
  · exact closes
  · intro before next _ other
    simp [Scanner.step?, other, closes]

/-- A number that survives is read as itself. -/
theorem spells_number {number : Number} (survives : number.Survives) :
    Spells number.text.toList [.number (some number)] := by
  obtain ⟨numeral, written, value⟩ := Option.bind_eq_some_iff.mp survives
  have owned : ∀ c ∈ number.text.toList, isNumeralChar c := by
    intro c mem
    rcases Numeral.character_of_ofChars? written mem with
      digit | rfl | ⟨-, rfl⟩ | ⟨-, rfl | rfl | rfl⟩
    · simp [isNumeralChar, digit]
    all_goals rfl
  obtain ⟨c, digits, eq, first⟩ := Numeral.exists_first_of_ofChars? written
  rw [eq] at written owned ⊢
  have closes (before : List Token) : Scanner.close? ⟨.numeral (digits.reverse ++ [c]), before⟩ =
      some (.number (some number) :: before) := by
    simp [Scanner.close?, written, value]
  apply spells_run .numeral isNumeralChar
  · intro reversed before c digit
    exact if_pos digit
  · exact Scanner.step?_numeral first
  · exact fun c mem => owned c (List.mem_cons_of_mem _ mem)
  · exact closes
  · intro before next other _
    simp [Scanner.step?, other, closes]

/-- A string in quotes is read as its content. -/
theorem spells_quoted (content : String) :
    Spells (Json.quoted content).toList [.text (some content)] := by
  intro before rest _
  have opened : Scanner.step? ⟨.between, before⟩ '"' = some (Scanner.inString [] before) := rfl
  have closed : Scanner.step? (Scanner.inString content.toList.reverse before) '"' =
      some ⟨.between, .text (some content) :: before⟩ := by
    simp [Scanner.inString, Scanner.step?, Scanner.string?, Content.string?]
  have written : (Json.quoted content).toList ++ rest =
      '"' :: (content.toList.flatMap Json.escape ++ '"' :: rest) := by
    simp [Json.quoted]
  rw [written, Scanner.finish?_cons opened, Scanner.finish?_escapes, List.append_nil,
    Scanner.finish?_cons closed]
  rfl

end Token

namespace Json

open Token

/-! ### Printed values -/

mutual

/-- The tokens of a value. -/
def tokens : Json → List Token
  | .null => [.null]
  | .bool value => [.bool value]
  | .number value => [.number (some value)]
  | .text content => [.text (some content)]
  | .array items => .openArray :: (itemTokens items ++ [.closeArray])
  | .object members => .openObject :: (memberTokens members ++ [.closeObject])

/-- The tokens of items with commas between them. -/
def itemTokens : List Json → List Token
  | [] => []
  | [item] => tokens item
  | item :: rest => tokens item ++ .comma :: itemTokens rest

/-- The tokens of members with commas between them. -/
def memberTokens : List (String × Json) → List Token
  | [] => []
  | [(key, value)] => .text (some key) :: .colon :: tokens value
  | (key, value) :: rest => .text (some key) :: .colon :: (tokens value ++ .comma :: memberTokens rest)

end

mutual

/-- The numbers in a value. -/
def numbers : Json → List Number
  | .number value => [value]
  | .array items => itemNumbers items
  | .object members => memberNumbers members
  | _ => []

/-- The numbers in items. -/
def itemNumbers : List Json → List Number
  | [] => []
  | item :: rest => numbers item ++ itemNumbers rest

/-- The numbers in members. -/
def memberNumbers : List (String × Json) → List Number
  | [] => []
  | (_, value) :: rest => numbers value ++ memberNumbers rest

end

/-- The numbers of items are those of one item after the other. -/
theorem itemNumbers_eq (items : List Json) : itemNumbers items = items.flatMap numbers := by
  induction items with
  | nil => rfl
  | cons item rest ih => rw [itemNumbers, ih, List.flatMap_cons]

theorem memberNumbers_eq (members : List (String × Json)) :
    memberNumbers members = members.flatMap fun member => member.2.numbers := by
  induction members with
  | nil => rfl
  | cons member rest ih => rw [memberNumbers, ih, List.flatMap_cons]

theorem spells_null : Spells "null".toList [.null] :=
  spells_word (fun _ => rfl) rfl rfl

/-- A truth value spells itself. -/
theorem spells_bool (value : Bool) :
    Spells (if value then "true" else "false").toList [.bool value] := by
  cases value with
  | false => exact spells_word (fun _ => rfl) rfl rfl
  | true => exact spells_word (fun _ => rfl) rfl rfl

mutual

/-- On one line a value spells its tokens. -/
theorem spells_compact : (value : Json) → (∀ number ∈ value.numbers, number.Survives) →
    Spells value.compact.toList value.tokens
  | .null, _ => spells_null
  | .bool value, _ => spells_bool value
  | .number value, survive => spells_number (survive value (List.mem_singleton_self _))
  | .text content, _ => spells_quoted content
  | .array items, survive => by
      have inner : Spells (compactItems items).toList (itemTokens items) :=
        spells_compactItems items survive
      simpa [compact, tokens] using inner.bracketed (List.forall_mem_nil _)
  | .object members, survive => by
      have inner : Spells (compactMembers members).toList (memberTokens members) :=
        spells_compactMembers members survive
      simpa [compact, tokens] using inner.braced (List.forall_mem_nil _)

/-- Items with commas. -/
theorem spells_compactItems : (items : List Json) →
    (∀ number ∈ itemNumbers items, number.Survives) →
    Spells (compactItems items).toList (itemTokens items)
  | [], _ => Spells.nil
  | [item], survive => by
      have ⟨only, _⟩ := List.forall_mem_append.mp survive
      exact spells_compact item only
  | item :: next :: rest, survive => by
      have ⟨first, others⟩ := List.forall_mem_append.mp survive
      have head : Spells item.compact.toList item.tokens := spells_compact item first
      have tail := spells_compactItems (next :: rest) others
      simpa [compactItems, itemTokens] using head.listed tail

/-- Members with commas. -/
theorem spells_compactMembers : (members : List (String × Json)) →
    (∀ number ∈ memberNumbers members, number.Survives) →
    Spells (compactMembers members).toList (memberTokens members)
  | [], _ => Spells.nil
  | [(key, value)], survive => by
      have ⟨only, _⟩ := List.forall_mem_append.mp survive
      have content := spells_compact value only
      simpa [compactMembers, memberTokens] using
        (spells_quoted key).member (List.forall_mem_nil _) content
  | (key, value) :: next :: rest, survive => by
      have ⟨first, others⟩ := List.forall_mem_append.mp survive
      have head := (spells_quoted key).member (List.forall_mem_nil _) (spells_compact value first)
      have tail := spells_compactMembers (next :: rest) others
      simpa [compactMembers, memberTokens] using head.listed tail

end

theorem isBlank_space : ∀ c ∈ [' '], isBlank c := List.forall_mem_singleton.mpr rfl

theorem isBlank_newLine (depth : Nat) : ∀ c ∈ (newLine depth).toList, isBlank c := by
  intro c mem
  rw [newLine, String.toList_ofList] at mem
  rcases List.mem_cons.mp mem with rfl | mem
  · rfl
  · obtain rfl := List.eq_of_mem_replicate mem
    rfl

mutual

/-- Indented, a value spells the same tokens. -/
theorem spells_indented (depth : Nat) : (value : Json) →
    (∀ number ∈ value.numbers, number.Survives) →
    Spells (value.indented depth).toList value.tokens
  | .null, _ => spells_null
  | .bool value, _ => spells_bool value
  | .number value, survive => spells_number (survive value (List.mem_singleton_self _))
  | .text content, _ => spells_quoted content
  | .array [], _ => by
      simpa [indented, tokens, itemTokens] using
        Spells.nil.bracketed (List.forall_mem_nil _)
  | .array (item :: rest), survive => by
      have inner := spells_indentedItems (depth + 1) (item :: rest) survive
      simpa [indented, tokens] using
        inner.bracketed (isBlank_newLine depth)
  | .object [], _ => by
      simpa [indented, tokens, memberTokens] using
        Spells.nil.braced (List.forall_mem_nil _)
  | .object (member :: rest), survive => by
      have inner := spells_indentedMembers (depth + 1) (member :: rest) survive
      simpa [indented, tokens] using
        inner.braced (isBlank_newLine depth)

/-- Items, each on its line. -/
theorem spells_indentedItems (depth : Nat) : (items : List Json) →
    (∀ number ∈ itemNumbers items, number.Survives) →
    Spells (indentedItems depth items).toList (itemTokens items)
  | [], _ => by simpa [indentedItems, itemTokens] using Spells.nil
  | [item], survive => by
      have ⟨only, _⟩ := List.forall_mem_append.mp survive
      have content := (spells_indented depth item only).blank (isBlank_newLine depth)
      simpa [indentedItems, itemTokens] using content
  | item :: next :: rest, survive => by
      have ⟨first, others⟩ := List.forall_mem_append.mp survive
      have head := (spells_indented depth item first).blank (isBlank_newLine depth)
      have tail := spells_indentedItems depth (next :: rest) others
      simpa [indentedItems, itemTokens] using head.listed tail

/-- Members, each on its line. -/
theorem spells_indentedMembers (depth : Nat) : (members : List (String × Json)) →
    (∀ number ∈ memberNumbers members, number.Survives) →
    Spells (indentedMembers depth members).toList (memberTokens members)
  | [], _ => by simpa [indentedMembers, memberTokens] using Spells.nil
  | [(key, value)], survive => by
      have ⟨only, _⟩ := List.forall_mem_append.mp survive
      have content := (spells_quoted key).member isBlank_space
        (spells_indented depth value only)
      simpa [indentedMembers, memberTokens] using content.blank (isBlank_newLine depth)
  | (key, value) :: next :: rest, survive => by
      have ⟨first, others⟩ := List.forall_mem_append.mp survive
      have content := (spells_quoted key).member isBlank_space
        (spells_indented depth value first)
      have tail := spells_indentedMembers depth (next :: rest) others
      simpa [indentedMembers, memberTokens] using
        (content.blank (isBlank_newLine depth)).listed tail

end

end Json

end Imprint
