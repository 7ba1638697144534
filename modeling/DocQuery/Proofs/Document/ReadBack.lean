import DocQuery.Document.Printer
import DocQuery.Document.Reader
import Mathlib.Algebra.Ring.Nat

/-!
# Reading written strings back

A string between quotes is read back as the string that was written, whatever follows it
(`scan_stringChars`). So an object of strings is read back as it is, its members in their
order (`parse?_render_strings`), and its text has no control characters
(`space_le_of_mem_chars`).
-/
namespace DocQuery

namespace Hex

theorem digit?_digitChar {n : Nat} (digit : n < 16) : digit? (Nat.digitChar n) = some n := by
  have all : ∀ n < 16, digit? (Nat.digitChar n) = some n := by decide
  exact all n digit

theorem utf8Size_digitChar {n : Nat} (digit : n < 16) : (Nat.digitChar n).utf8Size = 1 := by
  have all : ∀ n < 16, (Nat.digitChar n).utf8Size = 1 := by decide
  exact all n digit

/-- Digits of a fixed width are read back as the number, less what was cut off. -/
theorem value?_fixed (width n : Nat) : value? (fixed width n) = some (n % 16 ^ width) := by
  induction width generalizing n with
  | zero =>
    rw [Nat.pow_zero, Nat.mod_one]
    rfl
  | succ width ih =>
    have last : digit? (Nat.digitChar (n % 16)) = some (n % 16) :=
      digit?_digitChar (Nat.mod_lt n (by decide))
    have front : (fixed width (n / 16)).foldlM (fun n c => (digit? c).map (16 * n + ·)) 0 =
        some (n / 16 % 16 ^ width) := ih (n / 16)
    rw [value?, fixed, List.foldlM_append, front, Nat.pow_succ', Nat.mod_mul]
    simp [last, Nat.add_comm]

end Hex

namespace Json

/-- A character is written by a backslash and a letter, by number, or as itself. -/
theorem escapeChar_cases (c : Char) :
    (∃ letter, escapeChar c = ['\\', letter] ∧ Token.PartialText.escaped? letter = some c ∧
      0x20 ≤ letter.toNat) ∨
    (escapeChar c = '\\' :: 'u' :: Hex.fixed 4 c.toNat ∧ c.toNat < 0x20) ∨
    (escapeChar c = [c] ∧ 0x20 ≤ c.toNat ∧ c ≠ '"' ∧ c ≠ '\\') := by
  by_cases short : c ∈ ['"', '\\', '\x08', '\x0c', '\n', '\r', '\t']
  · left
    simp only [List.mem_cons, List.not_mem_nil, or_false] at short
    rcases short with rfl | rfl | rfl | rfl | rfl | rfl | rfl <;>
      exact ⟨_, rfl, rfl, by decide⟩
  · right
    simp only [List.mem_cons, List.not_mem_nil, or_false, not_or] at short
    obtain ⟨quote, backslash, backspace, feed, newline, carriage, tab⟩ := short
    unfold escapeChar
    rw [if_neg quote, if_neg backslash, if_neg backspace, if_neg feed, if_neg newline,
      if_neg carriage, if_neg tab]
    by_cases control : c.toNat < 0x20
    · exact .inl ⟨if_pos control, control⟩
    · exact .inr ⟨if_neg control, Nat.not_lt.mp control, quote, backslash⟩

end Json

namespace Token

theorem scan_cons (position : Position) (c : Char) (rest : List Char) :
    scan position (c :: rest) =
      match step position c with
      | .advance completed next => completed ++ scan next rest
      | .refuse completed => completed ++ [.malformed] :=
  rfl

theorem step_text (read : PartialText) (c : Char) :
    step (.text read) c =
      if c = '"' then .advance [read.token] .between
      else if c = '\\' then .advance [] (.escape read)
      else if c.toNat < 0x20 then .refuse []
      else .advance [] (.text (read.push c)) :=
  rfl

theorem step_escape (read : PartialText) (c : Char) :
    step (.escape read) c =
      if c = 'u' then .advance [] (.hex read [])
      else match PartialText.escaped? c with
        | some char => .advance [] (.text (read.push char))
        | none => .refuse [] :=
  rfl

/-- A number of 16 bits after `\u` is read as the unit that it stands for. -/
theorem scan_fixed (read : PartialText) {unit : Nat} (fits : unit < 16 ^ 4) (more : List Char) :
    scan (.hex read []) (Hex.fixed 4 unit ++ more) = scan (.text (read.pushUnit unit)) more := by
  have value := Hex.value?_fixed 4 unit
  rw [Nat.mod_eq_of_lt fits] at value
  have size (n : Nat) : (Nat.digitChar (n % 16)).utf8Size = 1 :=
    Hex.utf8Size_digitChar (Nat.mod_lt n (by decide))
  simp only [Hex.fixed, List.nil_append, List.cons_append] at value ⊢
  simp [scan_cons, step, stepHex, utf8Size, size, value]

/-- A letter after a backslash is read as the character that it stands for. -/
theorem scan_letter (read : List Char) {letter c : Char}
    (known : PartialText.escaped? letter = some c) (more : List Char) :
    scan (.text { read }) ('\\' :: letter :: more) = scan (.text { read := c :: read }) more := by
  have notNumber : letter ≠ 'u' := by
    rintro rfl
    cases known
  simp [scan_cons, step_text, step_escape, notNumber, known, PartialText.push]

theorem scan_escapeChar (read : List Char) (c : Char) (more : List Char) :
    scan (.text { read }) (Json.escapeChar c ++ more) = scan (.text { read := c :: read }) more := by
  rcases Json.escapeChar_cases c with ⟨letter, written, known, -⟩ | ⟨written, control⟩ | ⟨written, plain⟩
  · rw [written]
    exact scan_letter read known more
  · have unit : PartialText.pushUnit { read } c.toNat = { read := c :: read } := by
      have low : ¬ 0xdc00 ≤ c.toNat := by omega
      have high : ¬ 0xd800 ≤ c.toNat := by omega
      simp [PartialText.pushUnit, low, high, PartialText.push]
    have number := scan_fixed { read } (Nat.lt_trans control (by decide)) more
    rw [unit] at number
    rw [written]
    exact number
  · obtain ⟨printable, notQuote, notBackslash⟩ := plain
    have allowed : ¬ c.toNat < 0x20 := Nat.not_lt.mpr printable
    simp [written, scan_cons, step_text, notQuote, notBackslash, allowed, PartialText.push]

theorem scan_escaped (read cs more : List Char) :
    scan (.text { read }) (cs.flatMap Json.escapeChar ++ more) =
      scan (.text { read := cs.reverse ++ read }) more := by
  induction cs generalizing read with
  | nil => rfl
  | cons c rest ih =>
    rw [List.flatMap_cons, List.append_assoc, scan_escapeChar, ih, List.reverse_cons,
      List.append_assoc]
    rfl

/-- A written string is one token, the string. -/
theorem scan_stringChars (s : String) (more : List Char) :
    scan .between (Json.stringChars s ++ more) = .text (some s) :: scan .between more := by
  have opened (rest : List Char) : scan .between ('"' :: rest) = scan (.text {}) rest := rfl
  have closed (read : List Char) : scan (.text { read }) ('"' :: more) =
      .text (some (String.ofList read.reverse)) :: scan .between more := rfl
  rw [Json.stringChars, List.cons_append, List.append_assoc, opened, scan_escaped,
    List.singleton_append, closed, List.append_nil, List.reverse_reverse, String.ofList_toList]

/-- A written member is three tokens: its name, a colon and its value. -/
theorem scan_member (name value : String) (more : List Char) :
    scan .between (Json.stringChars name ++ ':' :: (Json.stringChars value ++ more)) =
      .text (some name) :: .colon :: .text (some value) :: scan .between more := by
  have colon (rest : List Char) : scan .between (':' :: rest) = .colon :: scan .between rest := rfl
  rw [scan_stringChars, colon, scan_stringChars]

theorem scan_blanks {blanks : List Char} (blank : ∀ c ∈ blanks, isBlank c = true) :
    scan .between blanks = [] := by
  induction blanks with
  | nil => rfl
  | cons c rest ih =>
    rw [List.forall_mem_cons] at blank
    have skipped : step .between c = .advance [] .between := if_pos blank.1
    rw [scan_cons, skipped]
    exact ih blank.2

end Token

namespace Json

/-- The members of an object of strings. -/
def strings (values : Assoc String) : Members :=
  values.map fun entry => (entry.1, .str entry.2)

theorem chars_strings_nil : (Json.obj (strings [])).chars = ['{', '}'] := rfl

theorem chars_strings_cons (name value : String) (rest : Assoc String) :
    (Json.obj (strings ((name, value) :: rest))).chars =
      '{' :: (stringChars name ++ ':' :: (stringChars value ++ moreMembers (strings rest))) :=
  rfl

theorem moreMembers_strings_cons (name value : String) (rest : Assoc String) :
    moreMembers (strings ((name, value) :: rest)) =
      ',' :: (stringChars name ++ ':' :: (stringChars value ++ moreMembers (strings rest))) :=
  rfl

theorem keys_strings (values : Assoc String) : (strings values).keys = values.keys := by
  simp [strings, Assoc.keys]

theorem get?_strings (values : Assoc String) (name : String) :
    (strings values).get? name = (values.get? name).map Json.str := by
  induction values with
  | nil => rfl
  | cons entry rest ih =>
    simp only [strings, List.map_cons, Assoc.get?] at ih ⊢
    split
    · rfl
    · exact ih

theorem insert_strings (values : Assoc String) (name value : String) :
    (strings values).insert name (.str value) = strings (values.insert name value) := by
  induction values with
  | nil => rfl
  | cons entry rest ih =>
    simp only [strings, List.map_cons, Assoc.insert] at ih ⊢
    split <;> simp [ih]

namespace Place

/-- Reading the members after the first adds each to those before. -/
theorem read_moreMembers (values : Assoc String) (before : Members) (frames : List Frame)
    (more : List Char) :
    (Token.scan .between (moreMembers (strings values) ++ more)).foldlM advance
        ⟨.afterMember before, frames⟩ =
      (Token.scan .between more).foldlM advance
        (complete (.obj (before.insertAll (strings values))) frames) := by
  induction values generalizing before with
  | nil => rfl
  | cons entry rest ih =>
    obtain ⟨name, value⟩ := entry
    have comma (rest : List Char) :
        Token.scan .between (',' :: rest) = .comma :: Token.scan .between rest := rfl
    rw [moreMembers_strings_cons, List.cons_append, comma, List.append_assoc, List.cons_append,
      List.append_assoc, Token.scan_member]
    exact ih (before.insert name (.str value))

end Place

/-- An object of strings is read back as it was written, before any blanks. -/
theorem parse?_render_strings {values : Assoc String} (distinct : values.Distinct) {blanks : String}
    (blank : ∀ c ∈ blanks.toList, Token.isBlank c = true) :
    parse? ((Json.obj (strings values)).render ++ blanks) = some (.obj (strings values)) := by
  have opened (rest : List Char) :
      Token.scan .between ('{' :: rest) = .openObject :: Token.scan .between rest := rfl
  have closed : Token.scan .between ('}' :: blanks.toList) = [.closeObject] :=
    congrArg (Token.closeObject :: ·) (Token.scan_blanks blank)
  rw [parse?, ofTokens?, Token.ofText, render, String.toList_append, String.toList_ofList]
  cases values with
  | nil =>
    rw [chars_strings_nil, List.cons_append, List.singleton_append, opened, closed]
    rfl
  | cons entry rest =>
    obtain ⟨name, value⟩ := entry
    have names : Assoc.Distinct ([(name, Json.str value)] ++ strings rest) := by
      rw [Assoc.Distinct, ← keys_strings] at distinct
      exact distinct
    have others := Place.read_moreMembers rest [(name, .str value)] [] blanks.toList
    rw [Assoc.insertAll_of_distinct names, Token.scan_blanks blank] at others
    rw [chars_strings_cons, List.cons_append, opened, List.append_assoc, List.cons_append,
      List.append_assoc, Token.scan_member]
    exact congrArg (·.bind Place.result?) others

/-! ## Control characters -/

theorem space_le_of_mem_fixed {width n : Nat} {d : Char} (member : d ∈ Hex.fixed width n) :
    0x20 ≤ d.toNat := by
  have digit : ∀ n < 16, 0x20 ≤ (Nat.digitChar n).toNat := by decide
  induction width generalizing n with
  | zero => cases member
  | succ width ih =>
    rcases List.mem_append.mp member with before | last
    · exact ih before
    · rw [List.mem_singleton.mp last]
      exact digit (n % 16) (Nat.mod_lt n (by decide))

theorem space_le_of_mem_escapeChar {c d : Char} (member : d ∈ escapeChar c) : 0x20 ≤ d.toNat := by
  rcases escapeChar_cases c with ⟨letter, written, -, printable⟩ | ⟨written, -⟩ |
    ⟨written, printable, -⟩
  · simp only [written, List.mem_cons, List.not_mem_nil, or_false] at member
    rcases member with rfl | rfl
    · decide
    · exact printable
  · simp only [written, List.mem_cons] at member
    rcases member with rfl | rfl | digit
    · decide
    · decide
    · exact space_le_of_mem_fixed digit
  · rw [written, List.mem_singleton] at member
    exact member ▸ printable

theorem space_le_of_mem_stringChars {s : String} {d : Char} (member : d ∈ stringChars s) :
    0x20 ≤ d.toNat := by
  simp only [stringChars, List.mem_cons, List.mem_append, List.mem_flatMap, List.not_mem_nil,
    or_false] at member
  rcases member with rfl | ⟨c, -, escaped⟩ | rfl
  · decide
  · exact space_le_of_mem_escapeChar escaped
  · decide

theorem space_le_of_mem_moreMembers {values : Assoc String} {d : Char}
    (member : d ∈ moreMembers (strings values)) : 0x20 ≤ d.toNat := by
  induction values with
  | nil =>
    rw [List.mem_singleton.mp member]
    decide
  | cons entry rest ih =>
    obtain ⟨name, value⟩ := entry
    rw [moreMembers_strings_cons] at member
    simp only [List.mem_cons, List.mem_append] at member
    rcases member with rfl | written | rfl | written | later
    · decide
    · exact space_le_of_mem_stringChars written
    · decide
    · exact space_le_of_mem_stringChars written
    · exact ih later

/-- The text of an object of strings has no control characters. -/
theorem space_le_of_mem_chars {values : Assoc String} {d : Char}
    (member : d ∈ (Json.obj (strings values)).chars) : 0x20 ≤ d.toNat := by
  cases values with
  | nil =>
    have braces : d = '{' ∨ d = '}' := by simpa [chars_strings_nil] using member
    rcases braces with rfl | rfl <;> decide
  | cons entry rest =>
    -- The first member is written as the later ones, after a brace in the place of a comma.
    rcases List.mem_cons.mp member with rfl | written
    · decide
    · have later : d ∈ moreMembers (strings (entry :: rest)) := List.mem_cons_of_mem ',' written
      exact space_le_of_mem_moreMembers later

end Json
end DocQuery
