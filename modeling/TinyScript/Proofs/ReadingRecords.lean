import Mathlib.Data.List.Nodup
import Mathlib.Data.List.Flatten
import TinyScript.Proofs.LiteralValues
import TinyScript.Report.Diagnostic
import TinyScript.Report.Document

/-!
# Reading records back

What is exchanged as one JSON line is read back from it.  A text in quotation
marks gives the code units of its characters, a number its digits, and a record
the object of its fields in their order.  A field that stands in an object once
is found wherever it stands, so the order of the fields does not matter, and a
diagnostic is determined by its line.
-/

namespace TinyScript

open Document (unitsFrom charsOf? readText readNumber readValue readFields)

theorem hexValue?_hexDigit {n : Nat} (below : n < 16) :
    Document.hexValue? (hexDigit n) = some n := by
  revert n
  decide

/-- A character inside quotation marks is read as one code unit. -/
theorem unitsFrom_jsonChar (c : Char) (units : List Nat) (rest : List Char) :
    unitsFrom units (jsonChar c ++ rest) = unitsFrom (c.toNat :: units) rest := by
  unfold jsonChar
  split
  · next quote => subst quote; simp [unitsFrom, Document.escapeOf?]
  split
  · next backslash => subst backslash; simp [unitsFrom, Document.escapeOf?]
  split
  · next backspace => subst backspace; simp [unitsFrom, Document.escapeOf?]
  split
  · next formFeed => subst formFeed; simp [unitsFrom, Document.escapeOf?]
  split
  · next newline => subst newline; simp [unitsFrom, Document.escapeOf?]
  split
  · next carriageReturn => subst carriageReturn; simp [unitsFrom, Document.escapeOf?]
  split
  · next tab => subst tab; simp [unitsFrom, Document.escapeOf?]
  split
  · next control =>
      have high := hexValue?_hexDigit (n := c.toNat / 16) (by omega)
      have low := hexValue?_hexDigit (n := c.toNat % 16) (by omega)
      have zero : Document.hexValue? '0' = some 0 := by decide
      have unit : c.toNat / 16 * 16 + c.toNat % 16 = c.toNat := by omega
      simp [unitsFrom, high, low, zero, unit]
  · next quote backslash _ _ _ _ _ plain =>
      rw [List.singleton_append, unitsFrom]
      · rw [if_neg (by simp [plain, backslash])]
      · exact quote
      · intro a b c d rest same
        exact absurd same backslash
      · intro e rest same
        exact absurd same backslash

theorem unitsFrom_jsonChars (chars : List Char) (units : List Nat) (rest : List Char) :
    unitsFrom units (chars.flatMap jsonChar ++ '"' :: rest) =
      some ((chars.map Char.toNat).reverse ++ units, rest) := by
  induction chars generalizing units with
  | nil => simp [unitsFrom]
  | cons c chars ih =>
      rw [List.flatMap_cons, List.append_assoc, unitsFrom_jsonChar, ih]
      simp

/-- No character is half of a surrogate pair. -/
theorem not_surrogate (c : Char) :
    Document.isHigh c.toNat = false ∧ Document.isLow c.toNat = false := by
  have valid : c.toNat < 0xD800 ∨ 0xDFFF < c.toNat ∧ c.toNat < 0x110000 := c.valid
  simp only [Document.isHigh, Document.isLow, Bool.and_eq_false_iff, decide_eq_false_iff_not]
  omega

/-- Characters are read back from their code units. -/
theorem charsOf?_toNat (chars : List Char) : charsOf? (chars.map Char.toNat) = some chars := by
  induction chars with
  | nil => rfl
  | cons c chars ih =>
      obtain ⟨notHigh, notLow⟩ := not_surrogate c
      cases chars with
      | nil => simp [charsOf?, notHigh, notLow]
      | cons d chars =>
          rw [List.map_cons] at ih
          simp [charsOf?, notHigh, notLow, ih]

/-- A text in quotation marks is read back. -/
theorem readText_jsonChars (s : String) (rest : List Char) :
    readText (s.toList.flatMap jsonChar ++ '"' :: rest) = some (some s, rest) := by
  simp [readText, unitsFrom_jsonChars, charsOf?_toNat]

theorem jsonText_chars (s : String) :
    (jsonText s).toList = '"' :: (s.toList.flatMap jsonChar ++ ['"']) := by
  simp [jsonText]

theorem natOf_toDigits (n : Nat) : Numeral.natOf (Nat.toDigits 10 n) = n := by
  rw [Numeral.natOf]
  exact Nat.ofDigitChars_eq_foldl.symm.trans Nat.ofDigitChars_ten_toDigits

theorem isDigit_of_mem_toDigits {n : Nat} : ∀ c ∈ Nat.toDigits 10 n, c.isDigit = true :=
  fun _ => Nat.isDigit_of_mem_toDigits (by decide) (by decide)

/-- Only zero is written with a zero in front. -/
theorem toDigits_head (n : Nat) :
    Nat.toDigits 10 n = ['0'] ∨ ∃ c more, Nat.toDigits 10 n = c :: more ∧ c ≠ '0' := by
  induction n using Nat.strongRecOn with
  | ind n ih =>
      by_cases small : n < 10
      · rw [Nat.toDigits_of_lt_base small]
        by_cases zero : n.digitChar = '0'
        · exact .inl (congrArg (fun c => [c]) zero)
        · exact .inr ⟨_, _, rfl, zero⟩
      · obtain zero | ⟨c, more, shape, notZero⟩ := ih (n / 10) (by omega)
        · have none : n / 10 = 0 := by
            rw [← natOf_toDigits (n / 10), zero]
            rfl
          omega
        · refine .inr ⟨c, more ++ [(n % 10).digitChar], ?_, notZero⟩
          rw [Nat.toDigits_of_base_le (by decide) (by omega), shape, List.cons_append]

/-- Digits whose value is a significand are all appended to it. -/
theorem appendDigits_of_lt {digits : List Char} {significand : Nat}
    (fits : digits.foldl (fun n c => 10 * n + Numeral.digitValue c) significand <
      WrittenNumber.significandEnd) :
    WrittenNumber.appendDigits significand digits =
      (digits.foldl (fun n c => 10 * n + Numeral.digitValue c) significand, digits.length) := by
  induction digits generalizing significand with
  | nil => rfl
  | cons c digits ih =>
      rw [List.foldl_cons] at fits ⊢
      have next := le_foldl_digits digits (10 * significand + Numeral.digitValue c)
      rw [WrittenNumber.appendDigits]
      simp only [if_pos (Nat.lt_of_le_of_lt next fits), ih fits, List.length_cons]

/-- A number of no more than 64 bits is finite. -/
theorem isFinite_toDigits {n : Nat} (fits : n < WrittenNumber.significandEnd) :
    (WrittenNumber.mk false (Nat.toDigits 10 n) [] none).isFinite = true := by
  have value := natOf_toDigits n
  rw [Numeral.natOf] at value
  have appended := @appendDigits_of_lt (Nat.toDigits 10 n) 0 (by rwa [value])
  simp [WrittenNumber.isFinite, WrittenNumber.scaled, appended, WrittenNumber.appendDigits]

/-- What may stand behind the content of a field: a comma or the closing brace. -/
def EndsDatum (rest : List Char) : Prop := ∃ c more, rest = c :: more ∧ (c = ',' ∨ c = '\x7d')

theorem EndsDatum.leaves {rest : List Char} (ends : EndsDatum rest) :
    Lexeme.Leaves Char.isDigit rest := by
  obtain ⟨c, more, rfl, rfl | rfl⟩ := ends <;> simp [Lexeme.Leaves]

/-- The digits of a number are read in front of the end of a field. -/
theorem readWhole_toDigits (n : Nat) {rest : List Char} (ends : EndsDatum rest) :
    Document.readWhole (Nat.toDigits 10 n ++ rest) = some (Nat.toDigits 10 n, rest) := by
  obtain zero | ⟨c, more, shape, notZero⟩ := toDigits_head n
  · rw [zero]
    obtain ⟨c, more, rfl, rfl | rfl⟩ := ends <;> simp [Document.readWhole]
  · have run := Lexeme.span_append (isDigit_of_mem_toDigits (n := n)) ends.leaves
    rw [shape] at run ⊢
    rw [List.cons_append, Document.readWhole]
    · rw [Document.readDigits, ← List.cons_append, run]
    · intro rest same
      exact absurd (List.cons.inj same).1 notZero

/-- A number without sign, point and exponent is read back as its digits. -/
theorem readNumber_toDigits (n : Nat) {rest : List Char} (ends : EndsDatum rest) :
    readNumber false (Nat.toDigits 10 n ++ rest) =
      some (.number ⟨false, Nat.toDigits 10 n, [], none⟩, rest) := by
  rw [readNumber, readWhole_toDigits n ends]
  obtain ⟨c, more, rfl, rfl | rfl⟩ := ends <;>
    simp [Document.readFraction, Document.readExponent]

def Datum.document : Datum → Document
  | .text s => .text s
  | .number n => .number ⟨false, Nat.toDigits 10 n, [], none⟩

/-- The content of a field is read back. -/
theorem readValue_json (datum : Datum) (bound : Nat) {rest : List Char} (ends : EndsDatum rest) :
    readValue (bound + 1) (datum.json.toList ++ rest) = some (datum.document, rest) := by
  cases datum with
  | text s =>
      have skipped : Document.skipBlanks ('"' :: (s.toList.flatMap jsonChar ++ '"' :: rest)) =
          '"' :: (s.toList.flatMap jsonChar ++ '"' :: rest) := rfl
      simp [Datum.json, jsonText_chars, readValue, skipped, readText_jsonChars, Datum.document]
  | number n =>
      obtain ⟨c, more, shape⟩ := List.exists_cons_of_ne_nil (Nat.toDigits_ne_nil (n := n) (b := 10))
      have digit : c.isDigit = true := isDigit_of_mem_toDigits (n := n) c (by simp [shape])
      have read := readNumber_toDigits n ends
      have other {d : Char} (noDigit : d.isDigit = false) : c ≠ d := by
        rintro rfl
        simp [digit] at noDigit
      have skipped : Document.skipBlanks (c :: (more ++ rest)) = c :: (more ++ rest) := by
        rw [Document.skipBlanks, List.dropWhile_cons_of_neg]
        simp [Document.isBlank, other]
      rw [shape, List.cons_append] at read
      rw [Datum.json, Nat.toString_eq_ofList_toDigits, String.toList_ofList, shape,
        List.cons_append, readValue, skipped]
      simp [read, Datum.document, shape, other]

namespace Record

def documents (record : Record) : List (String × Document) :=
  record.map fun (name, datum) => (name, datum.document)

def fieldChars (field : String × Datum) : List Char :=
  (jsonText field.1).toList ++ ':' :: field.2.json.toList

def moreChars (fields : Record) : List Char := fields.flatMap fun field => ',' :: fieldChars field

theorem json_cons (field : String × Datum) (fields : Record) :
    (json (field :: fields)).toList =
      '\x7b' :: (fieldChars field ++ (moreChars fields ++ ['\x7d'])) := by
  have joined (first : String) (others : List String) :
      (String.intercalate "," (first :: others)).toList =
        first.toList ++ others.flatMap fun other => ',' :: other.toList := by
    induction others generalizing first with
    | nil => simp
    | cons other others ih =>
        rw [String.intercalate_cons_cons, String.toList_append, ih]
        simp
  simp [json, joined, fieldChars, moreChars, List.flatMap_map]

theorem length_le_moreChars (fields : Record) : fields.length ≤ (moreChars fields).length := by
  induction fields with
  | nil => exact Nat.le_refl 0
  | cons field fields ih =>
      rw [moreChars] at ih ⊢
      rw [List.flatMap_cons, List.length_append, List.length_cons, List.length_cons]
      omega

/-- Fields as they are read, before it is checked that their names are texts. -/
def named (fields : List (String × Document)) : List (Option String × Document) :=
  fields.map fun field => (some field.1, field.2)

theorem ofFields_named (fields : List (String × Document)) :
    Document.ofFields (named fields) = .object fields := by
  have all {f : Option String × Document → Option (String × Document)}
      (each : ∀ field, f (some field.1, field.2) = some field) :
      (named fields).mapM f = some fields := by
    induction fields with
    | nil => rfl
    | cons field fields ih =>
        rw [named, List.map_cons, List.mapM_cons, each, ← named, ih]
        rfl
  rw [Document.ofFields, all fun _ => rfl]

theorem exactly_singleton (c : Char) (rest : List Char) :
    Document.exactly [c] (c :: rest) = some ((), rest) := by
  simp [Document.exactly, List.isPrefixOf?]

/-- A field is read back in front of others or of the closing brace. -/
theorem readFields_fieldChars (field : String × Datum) (bound : Nat) (more : List Char) :
    readFields (bound + 2) (fieldChars field ++ '\x7d' :: more) =
        some ([(some field.1, field.2.document)], more) ∧
      readFields (bound + 2) (fieldChars field ++ ',' :: more) =
        (readFields (bound + 1) more).map fun read =>
          ((some field.1, field.2.document) :: read.1, read.2) := by
  have closes : EndsDatum ('\x7d' :: more) := ⟨_, _, rfl, .inr rfl⟩
  have continues : EndsDatum (',' :: more) := ⟨_, _, rfl, .inl rfl⟩
  have last := readValue_json field.2 bound closes
  have inner := readValue_json field.2 bound continues
  constructor
  · rw [readFields]
    simp [fieldChars, jsonText_chars, Document.skipBlanks, Document.isBlank, exactly_singleton,
      readText_jsonChars, last]
  · rw [readFields]
    simp [fieldChars, jsonText_chars, Document.skipBlanks, Document.isBlank, exactly_singleton,
      readText_jsonChars, inner]
    cases readFields (bound + 1) more <;> rfl

/-- Fields are read back in their order, by a reader that may go as deep as they are many. -/
theorem readFields_json (field : String × Datum) (fields : Record) {bound : Nat}
    (room : fields.length + 2 ≤ bound) (rest : List Char) :
    readFields bound (fieldChars field ++ (moreChars fields ++ '\x7d' :: rest)) =
      some (named (documents (field :: fields)), rest) := by
  induction fields generalizing field bound with
  | nil =>
      obtain ⟨bound, rfl⟩ := Nat.exists_eq_add_of_le' room
      exact (readFields_fieldChars field bound rest).1
  | cons next fields ih =>
      obtain ⟨bound, rfl⟩ := Nat.exists_eq_add_of_le' room
      have following := @ih next (bound + fields.length + 2) (by omega)
      have here := (readFields_fieldChars field (bound + fields.length + 1)
        (fieldChars next ++ (moreChars fields ++ '\x7d' :: rest))).2
      rw [following] at here
      simpa [moreChars, documents, named, Nat.add_assoc] using here

/-- A record is read back as the object of its fields. -/
theorem ofText?_json (record : Record) :
    Document.ofText? record.json = some (.object record.documents) := by
  cases record with
  | nil => rfl
  | cons field fields =>
      have enough := length_le_moreChars fields
      have room : fields.length + 2 ≤ 2 * (json (field :: fields)).toList.length + 1 := by
        simp only [json_cons, List.length_cons, List.length_append]
        omega
      have read := readFields_json field fields room []
      obtain ⟨more, shape⟩ : ∃ more, fieldChars field ++ (moreChars fields ++ ['\x7d']) =
          '"' :: more := ⟨_, by rw [fieldChars, jsonText_chars, List.cons_append, List.cons_append]⟩
      rw [shape] at read
      have skipped (c : Char) (noBlank : Document.isBlank c = false) (rest : List Char) :
          Document.skipBlanks (c :: rest) = c :: rest :=
        List.dropWhile_cons_of_neg (by simp [noBlank])
      have object : readValue (2 * (json (field :: fields)).toList.length + 2)
          (json (field :: fields)).toList = some (.object (documents (field :: fields)), []) := by
        generalize 2 * (json (field :: fields)).toList.length = bound at read ⊢
        rw [json_cons, shape, readValue, skipped _ (by decide)]
        simp [skipped '"' (by decide), read, ofFields_named]
      rw [Document.ofText?]
      dsimp only
      rw [object]
      rfl

end Record

section

variable {name : String} {fields : List (String × Document)} {value : Document}

/-- Where names are distinct, a field is found wherever it stands. -/
theorem field?_of_mem (distinct : (fields.map Prod.fst).Nodup) (mem : (name, value) ∈ fields) :
    field? name fields = some value := by
  obtain ⟨before, behind, rfl⟩ := List.append_of_mem mem
  rw [List.map_append, List.map_cons, List.nodup_middle, List.nodup_cons, ← List.map_append,
    List.mem_map] at distinct
  have others (field : String × Document) (mem : field ∈ before ++ behind) :
      (field.1 == name) = false :=
    beq_eq_false_iff_ne.2 fun same => distinct.1 ⟨field, mem, same⟩
  have beforeNone : before.filter (·.1 == name) = [] :=
    List.filter_eq_nil_iff.2 fun field mem => by simp [others field (List.mem_append_left _ mem)]
  have behindNone : behind.filter (·.1 == name) = [] :=
    List.filter_eq_nil_iff.2 fun field mem => by simp [others field (List.mem_append_right _ mem)]
  simp [field?, List.filter_append, beforeNone, behindNone]

theorem field?_of_not_mem (absent : name ∉ fields.map Prod.fst) : field? name fields = none := by
  have none : fields.filter (·.1 == name) = [] := by
    rw [List.filter_eq_nil_iff]
    rintro field mem same
    exact absent (List.mem_map.2 ⟨field, mem, beq_iff_eq.1 same⟩)
  simp [field?, none]

end

theorem word?_document (n : UInt32) : (Datum.number n.toNat).document.word? = some n := by
  have below : n.toNat < 0x100000000 := n.toNat_lt
  simp only [Datum.document, Document.word?, WrittenNumber.word?, natOf_toDigits]
  simp [below]

namespace Record

variable {record : Record}

theorem documents_names : record.documents.map Prod.fst = record.map Prod.fst := by
  rw [documents, List.map_map]
  rfl

theorem ofFields?_documents (distinct : (record.map Prod.fst).Nodup) {span : Span}
    (present : ∀ field ∈ span.record, field ∈ record) :
    Span.ofFields? record.documents = some span := by
  have number (name : String) (n : UInt32) (mem : (name, .number n.toNat) ∈ span.record) :
      field? name record.documents = some (Datum.number n.toNat).document :=
    field?_of_mem (by rwa [documents_names]) (List.mem_map_of_mem (present _ mem))
  have line := number "line" span.start.line (by simp [Span.record])
  have column := number "column" span.start.column (by simp [Span.record])
  have endLine := number "end_line" span.stop.line (by simp [Span.record])
  have endColumn := number "end_column" span.stop.column (by simp [Span.record])
  simp [Span.ofFields?, line, column, endLine, endColumn, word?_document]

theorem text?_documents (distinct : (record.map Prod.fst).Nodup) {name s : String}
    (mem : (name, .text s) ∈ record) :
    field? name record.documents = some (.text s) :=
  field?_of_mem (by rwa [documents_names]) (List.mem_map_of_mem (f := fun field =>
    (field.1, field.2.document)) mem)

/-- A record can be kept if its numbers have no more than 64 bits. -/
theorem fieldsKept_documents (depth : Nat)
    (fits : ∀ name n, (name, .number n) ∈ record → n < WrittenNumber.significandEnd) :
    Document.fieldsKept depth record.documents = true := by
  induction record with
  | nil => rfl
  | cons field record ih =>
      have behind := ih fun name n mem => fits name n (List.mem_cons_of_mem _ mem)
      obtain ⟨name, s | n⟩ := field
      · simpa [documents, Document.fieldsKept, Datum.document, Document.isKept] using behind
      · have finite := isFinite_toDigits (fits name n List.mem_cons_self)
        simpa [documents, Document.fieldsKept, Datum.document, Document.isKept, finite] using behind

end Record

/-! ## Parse errors -/

/-- A parse error is read back from its fields in any order. -/
theorem parseError_of_perm {e : ParseError} {fields : Record} (order : fields.Perm e.record) :
    (Document.ofText? fields.json).bind ParseError.ofDocument? = some e := by
  have names : e.record.map Prod.fst =
    ["file", "message", "line", "column", "end_line", "end_column", "source_line"] := rfl
  have distinct : (fields.map Prod.fst).Nodup := by
    rw [(order.map Prod.fst).nodup_iff, names]
    decide
  have present {field : String × Datum} (mem : field ∈ e.record) : field ∈ fields :=
    order.mem_iff.2 mem
  have text (name s : String) (mem : (name, .text s) ∈ e.record) :
      field? name fields.documents = some (.text s) :=
    Record.text?_documents distinct (present mem)
  have file := text "file" e.file (by simp [ParseError.record])
  have message := text "message" e.message (by simp [ParseError.record])
  have sourceLine := text "source_line" e.sourceLine (by simp [ParseError.record])
  have span : Span.ofFields? fields.documents = some e.span :=
    Record.ofFields?_documents distinct fun field mem =>
      present (by simp [ParseError.record, mem])
  have kept : (Document.object fields.documents).isKept ParseError.maxDepth = true := by
    refine Bool.and_eq_true_iff.2 ⟨rfl, Record.fieldsKept_documents _ fun name n mem => ?_⟩
    have word : ∃ w : UInt32, n = w.toNat := by
      simp [order.mem_iff, ParseError.record, Span.record] at mem
      rcases mem with ⟨_, rfl⟩ | ⟨_, rfl⟩ | ⟨_, rfl⟩ | ⟨_, rfl⟩ <;> exact ⟨_, rfl⟩
    obtain ⟨w, rfl⟩ := word
    have below := w.toNat_lt
    simp only [WrittenNumber.significandEnd]
    omega
  rw [Record.ofText?_json, Option.bind_some, ParseError.ofDocument?, kept, file, message, span,
    sourceLine]
  rfl

/-! ## Diagnostics -/

namespace Diagnostic

/-- An object that tells the parts of a diagnostic, and nothing else. -/
structure ToldBy (d : Diagnostic) (fields : List (String × Document)) : Prop where
  distinct : (fields.map Prod.fst).Nodup
  named (name : String) : name ∈ fields.map Prod.fst ↔
    name = "kind" ∨ name = "message" ∨ d.file.isSome ∧ name = "file" ∨
      d.span.isSome ∧ name ∈ ["line", "column", "end_line", "end_column"] ∨
      d.sourceLine.isSome ∧ name = "source_line"
  kind : field? "kind" fields = some (.text d.kind)
  message : field? "message" fields = some (.text d.message)
  file : field? "file" fields = d.file.map .text
  span : Span.ofFields? fields = d.span
  sourceLine : field? "source_line" fields = d.sourceLine.map .text

theorem names_record (d : Diagnostic) : d.record.map Prod.fst = ["kind", "message"] ++
    ((if d.file.isSome then ["file"] else []) ++
      ((if d.span.isSome then ["line", "column", "end_line", "end_column"] else []) ++
        (if d.sourceLine.isSome then ["source_line"] else []))) := by
  obtain ⟨kind, message, file, span, sourceLine⟩ := d
  cases file <;> cases span <;> cases sourceLine <;> rfl

/-- The object of the record of a diagnostic tells its parts. -/
theorem toldBy_record (d : Diagnostic) : d.ToldBy d.record.documents := by
  have distinct : (d.record.map Prod.fst).Nodup := by
    rw [names_record]
    cases d.file.isSome <;> cases d.span.isSome <;> cases d.sourceLine.isSome <;> decide
  have named (name : String) : name ∈ d.record.map Prod.fst ↔
      name = "kind" ∨ name = "message" ∨ d.file.isSome ∧ name = "file" ∨
        d.span.isSome ∧ name ∈ ["line", "column", "end_line", "end_column"] ∨
        d.sourceLine.isSome ∧ name = "source_line" := by
    rw [names_record]
    simp only [List.mem_append, List.mem_ite_nil_right, List.mem_pair, List.mem_singleton, or_assoc]
  have absent (name : String) (missing : name ∉ d.record.map Prod.fst) :
      field? name d.record.documents = none :=
    field?_of_not_mem (by rwa [Record.documents_names])
  refine
    { distinct := by rwa [Record.documents_names]
      named := by simpa only [Record.documents_names] using named
      kind := Record.text?_documents distinct (by simp [record])
      message := Record.text?_documents distinct (by simp [record])
      file := ?_
      span := ?_
      sourceLine := ?_ }
  · cases present : d.file with
    | none => exact absent _ (by simp [named, present])
    | some file => exact Record.text?_documents distinct (by simp [record, present])
  · cases present : d.span with
    | none =>
        have line := absent "line" (by simp [named, present])
        simp [Span.ofFields?, line]
    | some span =>
        exact Record.ofFields?_documents distinct fun field mem => by simp [record, present, mem]
  · cases present : d.sourceLine with
    | none => exact absent _ (by simp [named, present])
    | some line => exact Record.text?_documents distinct (by simp [record, present])

/-- An object tells one diagnostic. -/
theorem ToldBy.unique {d d' : Diagnostic} {fields : List (String × Document)}
    (told : d.ToldBy fields) (told' : d'.ToldBy fields) : d = d' := by
  have textInjective : Function.Injective Document.text := fun s s' same => by cases same; rfl
  have kind : d.kind = d'.kind := textInjective (Option.some.inj (told.kind.symm.trans told'.kind))
  have message : d.message = d'.message :=
    textInjective (Option.some.inj (told.message.symm.trans told'.message))
  have file : d.file = d'.file :=
    Option.map_injective textInjective (told.file.symm.trans told'.file)
  have span : d.span = d'.span := told.span.symm.trans told'.span
  have sourceLine : d.sourceLine = d'.sourceLine :=
    Option.map_injective textInjective (told.sourceLine.symm.trans told'.sourceLine)
  obtain ⟨_, _, _, _, _⟩ := d
  congr

/-- The JSON text of a diagnostic determines it. -/
theorem json_injective : Function.Injective json := by
  intro d d' same
  have read := Record.ofText?_json d.record
  have read' := Record.ofText?_json d'.record
  rw [json, json] at same
  rw [same, read'] at read
  have told := d.toldBy_record
  injection read with read
  injection read with read
  rw [← read] at told
  exact told.unique d'.toldBy_record

end Diagnostic

/-- A character inside quotation marks is written without control characters. -/
theorem not_control_of_mem_jsonChar {c d : Char} (mem : d ∈ jsonChar c) : 0x20 ≤ d.toNat := by
  have digit : ∀ n < 16, 0x20 ≤ (hexDigit n).toNat := by decide
  unfold jsonChar at mem
  iterate 7
    split at mem
    · rcases List.mem_pair.1 mem with rfl | rfl <;> decide
  split at mem
  · simp only [List.mem_cons, List.not_mem_nil, or_false] at mem
    rcases mem with rfl | rfl | rfl | rfl | rfl | rfl
    iterate 4 decide
    · exact digit _ (by omega)
    · exact digit _ (by omega)
  · next plain =>
      rw [List.mem_singleton.1 mem]
      exact Nat.not_lt.1 plain

theorem not_control_of_mem_jsonText {s : String} {c : Char} (mem : c ∈ (jsonText s).toList) :
    0x20 ≤ c.toNat := by
  rw [jsonText_chars, List.mem_cons, List.mem_append, List.mem_flatMap, List.mem_singleton] at mem
  rcases mem with rfl | ⟨d, _, mem⟩ | rfl
  · decide
  · exact not_control_of_mem_jsonChar mem
  · decide

theorem Datum.not_control_of_mem_json {datum : Datum} {c : Char} (mem : c ∈ datum.json.toList) :
    0x20 ≤ c.toNat := by
  cases datum with
  | text s => exact not_control_of_mem_jsonText mem
  | number n =>
      rw [json, Nat.toString_eq_ofList_toDigits, String.toList_ofList] at mem
      have digit := isDigit_of_mem_toDigits c mem
      simp only [Char.isDigit, Bool.and_eq_true, decide_eq_true_eq] at digit
      exact Nat.le_trans (by decide) (UInt32.le_iff_toNat_le.1 digit.1)

/-- The JSON text of a record is a single line. -/
theorem Record.not_control_of_mem_json {record : Record} {c : Char}
    (mem : c ∈ record.json.toList) : 0x20 ≤ c.toNat := by
  have ofField {field : String × Datum} (mem : c ∈ fieldChars field) : 0x20 ≤ c.toNat := by
    rw [fieldChars, List.mem_append, List.mem_cons] at mem
    rcases mem with mem | rfl | mem
    · exact not_control_of_mem_jsonText mem
    · decide
    · exact Datum.not_control_of_mem_json mem
  cases record with
  | nil =>
      have braces : ∀ c ∈ ['\x7b', '\x7d'], 0x20 ≤ c.toNat :=
        List.forall_mem_cons.2 ⟨by decide, List.forall_mem_singleton.2 (by decide)⟩
      exact braces c mem
  | cons field fields =>
      rw [json_cons, List.mem_cons, List.mem_append, List.mem_append, moreChars, List.mem_flatMap,
        List.mem_singleton] at mem
      rcases mem with rfl | mem | ⟨other, _, mem⟩ | rfl
      · decide
      · exact ofField mem
      · rcases List.mem_cons.1 mem with rfl | mem
        · decide
        · exact ofField mem
      · decide

/--
Nothing is lost in JSON.  A parse error is read back from its fields in any
order.  The JSON text of a diagnostic is a single line and an object of its
kind, its message and those of its other parts that it has, a span being its
four numbers; and no other diagnostic has the same text.
-/
theorem json_lossless :
    (∀ (e : ParseError) (fields : Record), fields.Perm e.record →
      (Document.ofText? fields.json).bind ParseError.ofDocument? = some e) ∧
    (∀ d : Diagnostic, (∀ c ∈ d.json.toList, 0x20 ≤ c.toNat) ∧
      ∃ fields, Document.ofText? d.json = some (.object fields) ∧ d.ToldBy fields) ∧
    ∀ d d' : Diagnostic, d.json = d'.json → d = d' :=
  ⟨fun _ _ order => parseError_of_perm order,
    fun d => ⟨fun _ mem => Record.not_control_of_mem_json mem, _, Record.ofText?_json d.record,
      d.toldBy_record⟩,
    fun _ _ same => Diagnostic.json_injective same⟩

/-- A parse error with escaped characters, its fields read in reverse. -/
theorem json_lossless_reversed :
    let e : ParseError := ⟨"a\"b.ss", "expected `;`\n", ⟨⟨1, 9⟩, ⟨1, 4294967295⟩⟩, "é = '\\'\t\x01"⟩
    e.record.reverse.Perm e.record ∧
      (Document.ofText? (Record.json e.record.reverse)).bind ParseError.ofDocument? = some e :=
  ⟨List.reverse_perm _, json_lossless.1 _ _ (List.reverse_perm _)⟩

end TinyScript
