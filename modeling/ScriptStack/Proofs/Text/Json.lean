import ScriptStack.Proofs.Decimal.Integer

/-! JSON objects of texts and integers, one member a line: what is written is read back. -/
namespace ScriptStack.Json

inductive Item where
  | text (s : String)
  | integer (v : Int)
  deriving DecidableEq, Repr

def isPlain (c : Char) : Bool := c != '"' && c != '\\' && 0x20 ≤ c.toNat

theorem isPlain_of_isDigit {c : Char} (h : c.isDigit = true) : isPlain c = true := by
  have hquote : c ≠ '"' := by
    rintro rfl
    cases h
  have hescape : c ≠ '\\' := by
    rintro rfl
    cases h
  have hvisible : 0x20 ≤ c.toNat := by
    simp only [Char.isDigit, Bool.and_eq_true, decide_eq_true_eq, ge_iff_le,
      UInt32.le_iff_toNat_le] at h
    exact Nat.le_trans (by decide) h.1
  simp [isPlain, hquote, hescape, hvisible]

namespace Item

def written : Item → String
  | text s => "\"" ++ s ++ "\""
  | integer v => Decimal.integerText v

def Plain : Item → Prop
  | text s => ∀ c ∈ s.toList, isPlain c
  | integer _ => True

end Item

abbrev Member := String × Item

def member (row : Member) : String := "  \"" ++ row.1 ++ "\": " ++ row.2.written

def object : List Member → String
  | [] => "\x7b\x7d"
  | rows => "\x7b\n" ++ String.intercalate ",\n" (rows.map member) ++ "\n\x7d"

inductive Token where
  | opening
  | closing
  | colon
  | comma
  | text (content : List Char)
  | integer (digits : List Char)
  deriving DecidableEq, Repr

/-- Where a reader stands: between two tokens, or inside one, of which it has read so much, the last
character first. -/
inductive Place where
  | between
  | inText (read : List Char)
  | inInteger (read : List Char)

def isBlank (c : Char) : Bool := c == ' ' || c == '\n' || c == '\r' || c == '\t'

def mark? : Char → Option Token
  | '\x7b' => some .opening
  | '\x7d' => some .closing
  | ':' => some .colon
  | ',' => some .comma
  | _ => none

def separate (c : Char) (rest : Option (List Token)) : Option (List Token) :=
  if isBlank c then rest else (mark? c).bind fun t => rest.map (t :: ·)

def tokens? : Place → List Char → Option (List Token)
  | .between, [] => some []
  | .between, c :: rest =>
    if c = '"' then tokens? (.inText []) rest
    else if c = '-' ∨ c.isDigit then tokens? (.inInteger [c]) rest
    else separate c (tokens? .between rest)
  | .inText _, [] => none
  | .inText read, c :: rest =>
    if c = '"' then (tokens? .between rest).map (.text read.reverse :: ·)
    else if isPlain c then tokens? (.inText (c :: read)) rest
    else none
  | .inInteger read, [] => some [.integer read.reverse]
  | .inInteger read, c :: rest =>
    if c.isDigit then tokens? (.inInteger (c :: read)) rest
    else (separate c (tokens? .between rest)).map (.integer read.reverse :: ·)

def item? : Token → Option Item
  | .text content => some (.text (String.ofList content))
  | .integer digits => (Decimal.integer? digits).map .integer
  | _ => none

def members? : List Token → Option (List Member)
  | [.text key, .colon, value, .closing] =>
    (item? value).map fun item => [(String.ofList key, item)]
  | .text key :: .colon :: value :: .comma :: rest =>
    (item? value).bind fun item => (members? rest).map ((String.ofList key, item) :: ·)
  | _ => none

def object? : List Token → Option (List Member)
  | [.opening, .closing] => some []
  | .opening :: rest => members? rest
  | _ => none

def read? (s : String) : Option (List Member) := (tokens? .between s.toList).bind object?

/-! Scanning. -/

variable {c : Char} {rest read : List Char}

theorem tokens?_inText {content : List Char} (h : ∀ c ∈ content, isPlain c) :
    tokens? (.inText read) (content ++ '"' :: rest) =
      (tokens? .between rest).map (.text (read.reverse ++ content) :: ·) := by
  induction content generalizing read with
  | nil => rw [List.nil_append, tokens?, if_pos rfl, List.append_nil]
  | cons c content ih =>
    have hc : isPlain c = true := h c List.mem_cons_self
    have hquote : c ≠ '"' := by
      rintro rfl
      cases hc
    have hrest : ∀ d ∈ content, isPlain d := fun d hd => h d (List.mem_cons_of_mem c hd)
    rw [List.cons_append, tokens?, if_neg hquote, if_pos hc, ih hrest, List.reverse_cons,
      List.append_assoc, List.singleton_append]

theorem tokens?_text {content : List Char} (h : ∀ c ∈ content, isPlain c) :
    tokens? .between ('"' :: (content ++ '"' :: rest)) =
      (tokens? .between rest).map (.text content :: ·) := by
  rw [tokens?, if_pos rfl, tokens?_inText h]
  rfl

theorem tokens?_inInteger {digits : List Char} (h : ∀ c ∈ digits, c.isDigit = true)
    (hc : c.isDigit = false) : tokens? (.inInteger read) (digits ++ c :: rest) =
      (separate c (tokens? .between rest)).map (.integer (read.reverse ++ digits) :: ·) := by
  induction digits generalizing read with
  | nil =>
    rw [List.nil_append, tokens?, if_neg (by simp [hc]), List.append_nil]
  | cons d digits ih =>
    have hrest : ∀ e ∈ digits, e.isDigit = true := fun e he => h e (List.mem_cons_of_mem d he)
    rw [List.cons_append, tokens?, if_pos (h d List.mem_cons_self), ih hrest, List.reverse_cons,
      List.append_assoc, List.singleton_append]

def Separates (c : Char) : Prop := c ≠ '"' ∧ c ≠ '-' ∧ c.isDigit = false

instance (c : Char) : Decidable (Separates c) :=
  inferInstanceAs (Decidable (c ≠ '"' ∧ c ≠ '-' ∧ c.isDigit = false))

theorem tokens?_separate (hc : Separates c) :
    tokens? .between (c :: rest) = separate c (tokens? .between rest) := by
  obtain ⟨hquote, hminus, hdigit⟩ := hc
  rw [tokens?, if_neg hquote, if_neg (by simp [hminus, hdigit])]

theorem tokens?_integer (v : Int) (hc : Separates c) :
    tokens? .between (Decimal.integerDigits v ++ c :: rest) =
      (tokens? .between (c :: rest)).map (.integer (Decimal.integerDigits v) :: ·) := by
  obtain ⟨d, digits, hv, hd, hdigits⟩ := Decimal.integerDigits_eq_cons v
  have hquote : d ≠ '"' := by
    rintro rfl
    obtain hd | hd := hd <;> cases hd
  rw [tokens?_separate hc, hv, List.cons_append, tokens?, if_neg hquote, if_pos hd,
    tokens?_inInteger hdigits hc.2.2]
  rfl

namespace Item

def token : Item → Token
  | text s => .text s.toList
  | integer v => .integer (Decimal.integerDigits v)

theorem item?_token (item : Item) : item? item.token = some item := by
  cases item with
  | text s => rw [token, item?, String.ofList_toList]
  | integer v => rw [token, item?, Decimal.integer?_integerDigits, Option.map_some]

theorem tokens?_written {item : Item} (h : item.Plain) (hc : Separates c) :
    tokens? .between (item.written.toList ++ c :: rest) =
      (tokens? .between (c :: rest)).map (item.token :: ·) := by
  cases item with
  | text s =>
    have hchars : (Item.text s).written.toList ++ c :: rest =
        '"' :: (s.toList ++ '"' :: c :: rest) := by simp [written]
    rw [hchars, tokens?_text h]
    rfl
  | integer v =>
    rw [written, Decimal.toList_integerText]
    exact tokens?_integer v hc

end Item

def Plain (row : Member) : Prop := (∀ c ∈ row.1.toList, isPlain c) ∧ row.2.Plain

def memberTokens (row : Member) : List Token := [.text row.1.toList, .colon, row.2.token]

theorem tokens?_member {row : Member} (h : Plain row) (hc : Separates c) :
    tokens? .between ((member row).toList ++ c :: rest) =
      (tokens? .between (c :: rest)).map (memberTokens row ++ ·) := by
  have hchars : (member row).toList ++ c :: rest = ' ' :: ' ' :: '"' ::
      (row.1.toList ++ '"' :: ':' :: ' ' :: (row.2.written.toList ++ c :: rest)) := by
    simp [member]
  have hseparates : Separates ' ' ∧ Separates ':' := by decide
  rw [hchars, tokens?_separate hseparates.1, tokens?_separate hseparates.1, tokens?_text h.1,
    tokens?_separate hseparates.2, tokens?_separate hseparates.1, row.2.tokens?_written h.2 hc]
  cases tokens? .between (c :: rest) <;> rfl

def objectTokens : List Member → List Token
  | [] => [.closing]
  | [row] => memberTokens row ++ [.closing]
  | row :: next :: rows => memberTokens row ++ .comma :: objectTokens (next :: rows)

theorem tokens?_members {row : Member} {rows : List Member} (h : ∀ r ∈ row :: rows, Plain r) :
    tokens? .between (List.intercalate [',', '\n'] ((row :: rows).map fun r => (member r).toList) ++
      ['\n', '\x7d']) = some (objectTokens (row :: rows)) := by
  induction rows generalizing row with
  | nil =>
    rw [List.map_singleton, List.intercalate_singleton,
      tokens?_member (h row List.mem_cons_self) (by decide)]
    rfl
  | cons next rows ih =>
    -- the comma ends the item before it, and the line break stands between tokens
    have hrest := ih fun r hr => h r (List.mem_cons_of_mem row hr)
    have hcomma : Separates ',' := by decide
    have hline : Separates '\n' := by decide
    rw [List.map_cons, List.map_cons, List.intercalate_cons_cons, List.append_assoc, List.append_assoc,
      List.cons_append, tokens?_member (h row List.mem_cons_self) hcomma, tokens?_separate hcomma,
      List.cons_append, List.nil_append, tokens?_separate hline]
    rw [List.map_cons] at hrest
    rw [hrest]
    rfl

theorem members?_objectTokens (row : Member) (rows : List Member) :
    members? (objectTokens (row :: rows)) = some (row :: rows) := by
  induction rows generalizing row with
  | nil =>
    simp [objectTokens, memberTokens, members?, row.2.item?_token]
  | cons next rows ih =>
    simp [objectTokens, memberTokens, members?, row.2.item?_token, ih next]

theorem object?_objectTokens (row : Member) (rows : List Member) :
    object? (.opening :: objectTokens (row :: rows)) = some (row :: rows) := by
  rw [← members?_objectTokens]
  cases rows <;> rfl

/-- An object of plain members is read back, its members in the order in which they were written. -/
theorem read?_object {rows : List Member} (h : ∀ row ∈ rows, Plain row) :
    read? (object rows) = some rows := by
  cases rows with
  | nil => decide
  | cons row rows =>
    have hopening : Separates '\x7b' := by decide
    have hline : Separates '\n' := by decide
    have hchars : (object (row :: rows)).toList = '\x7b' :: '\n' ::
        (List.intercalate [',', '\n'] ((row :: rows).map fun r => (member r).toList) ++
          ['\n', '\x7d']) := by
      simp [object, String.toList_intercalate]
      rfl
    rw [read?, hchars, tokens?_separate hopening, tokens?_separate hline, tokens?_members h]
    exact object?_objectTokens row rows

end ScriptStack.Json
