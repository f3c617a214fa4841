import JVectorBench.Python

/-!
# JVectorBench.Csv

The parts of Python's `csv` module that the merge log of `create_and_test_large_index.py` goes
through, in the default `excel` dialect (delimiter `,`, quote character `"`, `doublequote`,
`QUOTE_MINIMAL`, no escape character, line terminator `\r\n`, `strict = False`):

* `writeRow` is `csv.writer(f).writerow(row)` on a row of field texts (`join_append_data` and
  `csv_writerow` of CPython's `Modules/_csv.c`);
* `fileLines` is what iterating a file opened with `newline=None` gives: `\r\n` and a lone `\r`
  read as `\n`, and the text cut after each `\n`;
* `Parser.processChar` is `parse_process_char`, over the states the dialect can reach, and
  `readLines` is `Reader_iternext` read to the end: the records, and the message of the
  `csv.Error` that stopped the reading, if any;
* `dictRows` is `csv.DictReader` (`Lib/csv.py`) over those records.

The round trip: reading back what `writeRow` wrote gives the rows, for fields without `\r`
(the reading turns it into `\n`) and within `field_size_limit()` (`readLines_writeRows`). The
proof follows the reader over the stream of characters with an end-of-line mark after each
`\n` (`readStream`), one field at a time.
-/

namespace JVectorBench.Csv

/-- `csv.field_size_limit()`, at its default. -/
def fieldSizeLimit : Nat := 131072

/-! ## `csv.writer(f).writerow(row)` -/

/-- `QUOTE_MINIMAL`: a field is quoted when it holds the delimiter, the quote character or a
character of the line terminator. -/
def needsQuotes (field : List Char) : Bool :=
  field.any fun c => c == ',' || c == '"' || c == '\r' || c == '\n'

/-- The inside of a quoted field: each quote character doubled. -/
def escapeQuotes : List Char → List Char
  | [] => []
  | c :: cs => if c = '"' then '"' :: '"' :: escapeQuotes cs else c :: escapeQuotes cs

/-- One field as `join_append_data` writes it. -/
def writeField (field : List Char) : List Char :=
  if needsQuotes field then '"' :: escapeQuotes field ++ ['"'] else field

/-- The text of a row before its line terminator: the fields joined by `,`, and `""` for a row
of one empty field, which `csv_writerow` quotes so that it does not read back as no field. -/
def rowBody (row : List String) : List Char :=
  if row = [""] then ['"', '"'] else [','].intercalate (row.map fun f => writeField f.toList)

/-- `writerow(row)`. -/
def writeRow (row : List String) : List Char :=
  rowBody row ++ ['\r', '\n']

/-! ## Reading a file opened with `newline=None` -/

/-- Universal newlines: `\r\n` and a lone `\r` read as `\n`. -/
def universalNewlines : List Char → List Char
  | '\r' :: '\n' :: cs => '\n' :: universalNewlines cs
  | '\r' :: cs => '\n' :: universalNewlines cs
  | c :: cs => c :: universalNewlines cs
  | [] => []

/-- The lines of a text, each with its `\n`, and a last line without one; `acc` is the line
read so far. -/
def splitLines (acc : List Char) : List Char → List (List Char)
  | [] => if acc = [] then [] else [acc]
  | c :: cs => if c = '\n' then (acc ++ [c]) :: splitLines [] cs else splitLines (acc ++ [c]) cs

/-- `for line in f` over a file holding `text`, opened with `newline=None`. -/
def fileLines (text : List Char) : List (List Char) :=
  splitLines [] (universalNewlines text)

/-! ## `csv.reader` -/

/-- The states of `parse_process_char` that the dialect reaches (the escape states need an
escape character). -/
inductive State where
  | startRecord
  | startField
  | inField
  | inQuotedField
  | quoteInQuotedField
  | eatCrnl
  deriving DecidableEq, Repr

/-- The reader's state: `state`, the field being read, and the fields of the record so far. -/
structure Parser where
  state : State
  field : List Char
  fields : List String
  deriving DecidableEq, Repr

namespace Parser

/-- `parse_reset`. -/
def init : Parser := ⟨.startRecord, [], []⟩

/-- `parse_save_field`, then the next state. -/
def saveField (p : Parser) (state : State) : Parser :=
  ⟨state, [], p.fields ++ [String.mk p.field]⟩

/-- `parse_add_char`, then the next state: a field may not grow past `field_size_limit()`. -/
def addChar (p : Parser) (c : Char) (state : State) : Except String Parser :=
  if fieldSizeLimit ≤ p.field.length then .error "field larger than field limit (131072)"
  else .ok ⟨state, p.field ++ [c], p.fields⟩

/-- The `START_FIELD` case, which `START_RECORD` falls through to on any character but a
line break; `none` is the end of a line (`EOL`). -/
def startField (p : Parser) : Option Char → Except String Parser
  | none => .ok (p.saveField .startRecord)
  | some c =>
    if c = '\n' ∨ c = '\r' then .ok (p.saveField .eatCrnl)
    else if c = '"' then .ok ⟨.inQuotedField, p.field, p.fields⟩
    else if c = ',' then .ok (p.saveField .startField)
    else p.addChar c .inField

/-- `parse_process_char`; `none` is the end of a line (`EOL`). -/
def processChar (p : Parser) : Option Char → Except String Parser
  | none =>
    match p.state with
    | .startRecord => .ok p
    | .startField => p.startField none
    | .inField => .ok (p.saveField .startRecord)
    | .inQuotedField => .ok p
    | .quoteInQuotedField => .ok (p.saveField .startRecord)
    | .eatCrnl => .ok ⟨.startRecord, p.field, p.fields⟩
  | some c =>
    match p.state with
    | .startRecord =>
      if c = '\n' ∨ c = '\r' then .ok ⟨.eatCrnl, p.field, p.fields⟩ else p.startField (some c)
    | .startField => p.startField (some c)
    | .inField =>
      if c = '\n' ∨ c = '\r' then .ok (p.saveField .eatCrnl)
      else if c = ',' then .ok (p.saveField .startField)
      else p.addChar c .inField
    | .inQuotedField =>
      if c = '"' then .ok ⟨.quoteInQuotedField, p.field, p.fields⟩ else p.addChar c .inQuotedField
    | .quoteInQuotedField =>
      if c = '"' then p.addChar c .inQuotedField
      else if c = ',' then .ok (p.saveField .startField)
      else if c = '\n' ∨ c = '\r' then .ok (p.saveField .eatCrnl)
      else p.addChar c .inField
    | .eatCrnl =>
      if c = '\n' ∨ c = '\r' then .ok p
      else .error
        "new-line character seen in unquoted field - do you need to open the file in universal-newline mode?"

/-- A line's characters through `parse_process_char`, then its `EOL`. -/
def processLine (p : Parser) (line : List Char) : Except String Parser :=
  (line.map some ++ [none]).foldlM processChar p

/-- `Reader_iternext` at the end of the input: a record cut off inside a field is saved;
otherwise the iteration stops. -/
def endOfInput (p : Parser) : List (List String) :=
  if p.field ≠ [] ∨ p.state = .inQuotedField then [(p.saveField p.state).fields] else []

end Parser

/-- `csv.reader(lines)` read to the end: a record ends with a line after which the parser is at
the start of a record. The records read, and the message of the `csv.Error` that stopped the
reading. -/
def readLines (p : Parser) : List (List Char) → List (List String) × Option String
  | [] => (p.endOfInput, none)
  | line :: lines =>
    match p.processLine line with
    | .error msg => ([], some msg)
    | .ok p' =>
      if p'.state = .startRecord then
        ((readLines .init lines).1.cons p'.fields, (readLines .init lines).2)
      else readLines p' lines

/-! ## `csv.DictReader` -/

/-- `dict(zip(fieldnames, row))`, then `restval = None` for the keys a short row lacks: the
assignments in order, the last one to a key giving its value (the `restkey` entry of a long
row is left out). -/
def rowDict (fieldnames row : List String) : List (String × Option String) :=
  (fieldnames.zip row).map (fun kv => (kv.1, some kv.2)) ++
    (fieldnames.drop row.length).map fun k => (k, none)

/-- `csv.DictReader(f)` over the records: the first names the fields, empty records are
skipped. -/
def dictRows : List (List String) → List (List (String × Option String))
  | [] => []
  | fieldnames :: rows => (rows.filter fun r => r ≠ []).map (rowDict fieldnames)

/-! ## The reader over a stream of characters and line ends -/

/-- The reader over the characters of the lines with `none` at each line's end. -/
def readStream (p : Parser) : List (Option Char) → List (List String) × Option String
  | [] => (p.endOfInput, none)
  | c :: cs =>
    match p.processChar c with
    | .error msg => ([], some msg)
    | .ok p' =>
      if c = none ∧ p'.state = .startRecord then
        ((readStream .init cs).1.cons p'.fields, (readStream .init cs).2)
      else readStream p' cs

/-- The characters of a text with a line end after each `\n`. -/
def newlineStream (cs : List Char) : List (Option Char) :=
  cs.flatMap fun c => if c = '\n' then [some c, none] else [some c]

section Stream

variable {p : Parser}

theorem readStream_some (c : Char) (cs : List (Option Char)) :
    readStream p (some c :: cs) =
      match p.processChar (some c) with
      | .error msg => ([], some msg)
      | .ok p' => readStream p' cs := by
  rw [readStream]
  cases p.processChar (some c) <;> simp

theorem readStream_map_some :
    ∀ (xs : List Char) (ys : List (Option Char)) (p : Parser),
      readStream p (xs.map some ++ ys) =
        match xs.foldlM (fun p c => p.processChar (some c)) p with
        | .error msg => ([], some msg)
        | .ok p' => readStream p' ys
  | [], _, _ => rfl
  | x :: xs, ys, p => by
    rw [List.map_cons, List.cons_append, readStream_some, List.foldlM_cons]
    cases p.processChar (some x) with
    | error msg => rfl
    | ok p' => exact readStream_map_some xs ys p'

/-- Line by line and character by character, the reader reads the same records. -/
theorem readLines_eq_readStream :
    ∀ (lines : List (List Char)) (p : Parser),
      readLines p lines = readStream p (lines.flatMap fun l => l.map some ++ [none])
  | [], _ => rfl
  | line :: lines, p => by
    rw [List.flatMap_cons, List.append_assoc, readStream_map_some, readLines, Parser.processLine,
      List.foldlM_append, List.foldlM_map]
    cases line.foldlM (fun p c => p.processChar (some c)) p with
    | error msg => rfl
    | ok p' =>
      simp only [List.foldlM_cons, List.foldlM_nil, ok_bind, bind_pure, readStream]
      cases p'.processChar none with
      | error msg => rfl
      | ok p'' => simp only [true_and, readLines_eq_readStream lines]; rfl

end Stream

/-! ## Round trip -/

@[simp] theorem newlineStream_nil : newlineStream [] = [] := rfl

theorem newlineStream_cons (c : Char) (cs : List Char) :
    newlineStream (c :: cs) = (if c = '\n' then [some c, none] else [some c]) ++ newlineStream cs :=
  rfl

@[simp] theorem newlineStream_append (xs ys : List Char) :
    newlineStream (xs ++ ys) = newlineStream xs ++ newlineStream ys :=
  List.flatMap_append ..

theorem newlineStream_eq_map {cs : List Char} (h : '\n' ∉ cs) : newlineStream cs = cs.map some := by
  induction cs with
  | nil => rfl
  | cons c cs ih =>
    rw [List.mem_cons, not_or] at h
    rw [newlineStream_cons, if_neg (Ne.symm h.1), ih h.2]
    rfl

/-- The joined fields of a row of two or more. -/
theorem intercalate_cons_cons (a b : List Char) (l : List (List Char)) :
    [','].intercalate (a :: b :: l) = a ++ ',' :: [','].intercalate (b :: l) :=
  rfl

namespace Parser

@[simp] theorem addChar_of_lt {p : Parser} {c : Char} {s : State} (h : p.field.length < fieldSizeLimit) :
    p.addChar c s = .ok ⟨s, p.field ++ [c], p.fields⟩ :=
  if_neg (Nat.not_le.mpr h)

end Parser

open Parser

/-- A line end inside a quoted field is read past. -/
@[simp] theorem readStream_inQuotedField_none (field : List Char) (fields : List String)
    (cs : List (Option Char)) :
    readStream ⟨.inQuotedField, field, fields⟩ (none :: cs) =
      readStream ⟨.inQuotedField, field, fields⟩ cs :=
  rfl

section RoundTrip

variable (fields : List String) (rest : List (Option Char))

/-- Inside a quoted field, the escaped text of `f`, line ends included, reads as `f`. -/
theorem readStream_escapeQuotes :
    ∀ (f field : List Char), field.length + f.length ≤ fieldSizeLimit →
      readStream ⟨.inQuotedField, field, fields⟩ (newlineStream (escapeQuotes f) ++ rest) =
        readStream ⟨.inQuotedField, field ++ f, fields⟩ rest
  | [], field, _ => by simp [escapeQuotes]
  | c :: f, field, h => by
    rw [List.length_cons] at h
    have hlt : field.length < fieldSizeLimit := by omega
    have ih := readStream_escapeQuotes f (field ++ [c])
      (by rw [List.length_append, List.length_singleton]; omega)
    rw [List.append_assoc, List.singleton_append] at ih
    by_cases hq : c = '"'
    · subst hq
      simp [escapeQuotes, newlineStream_cons, readStream_some, processChar, hlt, ih]
    · by_cases hn : c = '\n'
      · subst hn
        simp [escapeQuotes, newlineStream_cons, readStream_some, processChar, hlt, ih]
      · simp [escapeQuotes, hq, newlineStream_cons, hn, readStream_some, processChar, hlt, ih]

/-- Inside an unquoted field, text without a delimiter or a line break reads as itself. -/
theorem readStream_unquoted :
    ∀ (f field : List Char), (∀ c ∈ f, c ≠ ',' ∧ c ≠ '\r' ∧ c ≠ '\n') →
      field.length + f.length ≤ fieldSizeLimit →
      readStream ⟨.inField, field, fields⟩ (f.map some ++ rest) =
        readStream ⟨.inField, field ++ f, fields⟩ rest
  | [], field, _, _ => by simp
  | c :: f, field, hf, h => by
    rw [List.length_cons] at h
    have hlt : field.length < fieldSizeLimit := by omega
    have ih := readStream_unquoted f (field ++ [c]) (fun c hc => hf c (List.mem_cons_of_mem _ hc))
      (by rw [List.length_append, List.length_singleton]; omega)
    rw [List.append_assoc, List.singleton_append] at ih
    obtain ⟨h1, h2, h3⟩ := hf c (List.mem_cons_self _ _)
    simp [readStream_some, processChar, h1, h2, h3, hlt, ih]

variable {s : State} (hs : s = .startRecord ∨ s = .startField) {d : Char} (hd : d = ',' ∨ d = '\n')
include hs hd

/-- A quoted field and the separator after it: the field is saved, and the parser waits for the
next field or for the line end. -/
theorem readStream_quoted {f : List Char} (hlen : f.length ≤ fieldSizeLimit) (acc : List String) :
    readStream ⟨s, [], acc⟩ (newlineStream ('"' :: escapeQuotes f ++ ['"']) ++ some d :: rest) =
      readStream ⟨if d = ',' then .startField else .eatCrnl, [], acc ++ [String.mk f]⟩ rest := by
  have hopen : processChar ⟨s, [], acc⟩ (some '"') = .ok ⟨.inQuotedField, [], acc⟩ := by
    rcases hs with rfl | rfl <;> rfl
  simp only [List.cons_append, newlineStream_cons, newlineStream_append, newlineStream_nil,
    Char.reduceEq, ↓reduceIte, List.singleton_append, List.nil_append, List.append_assoc,
    readStream_some, hopen]
  rw [readStream_escapeQuotes _ _ _ [] (by simpa using hlen)]
  rcases hd with rfl | rfl <;> rfl

/-- An unquoted field and the separator after it. The empty field at the start of a record is
the one exception: there a line end reads as an empty line. -/
theorem readStream_unquotedField {f : List Char} (hq : needsQuotes f = false)
    (hlen : f.length ≤ fieldSizeLimit) (hne : s = .startField ∨ f ≠ [] ∨ d = ',')
    (acc : List String) :
    readStream ⟨s, [], acc⟩ (f.map some ++ some d :: rest) =
      readStream ⟨if d = ',' then .startField else .eatCrnl, [], acc ++ [String.mk f]⟩ rest := by
  have hf : ∀ c ∈ f, c ≠ ',' ∧ c ≠ '"' ∧ c ≠ '\r' ∧ c ≠ '\n' := by
    simpa [needsQuotes, not_or, and_assoc] using hq
  cases f with
  | nil => rcases hs with rfl | rfl <;> rcases hd with rfl | rfl <;> simp_all [readStream_some] <;> rfl
  | cons c f =>
    obtain ⟨h1, h2, h3, h4⟩ := hf c (List.mem_cons_self _ _)
    have hstep : processChar ⟨s, [], acc⟩ (some c) = .ok ⟨.inField, [c], acc⟩ := by
      rcases hs with rfl | rfl <;> simp [processChar, startField, fieldSizeLimit, h1, h2, h3, h4]
    rw [List.map_cons, List.cons_append, readStream_some, hstep]
    simp only
    rw [readStream_unquoted _ _ _ _ (fun c hc => (fun ⟨a, _, b, c⟩ => ⟨a, b, c⟩) (hf c
      (List.mem_cons_of_mem _ hc))) (by simp only [List.length_cons] at hlen; simp; omega)]
    rcases hd with rfl | rfl <;> rfl

/-- A field as `writerow` writes it, and the separator after it. -/
theorem readStream_writeField {f : List Char} (hlen : f.length ≤ fieldSizeLimit)
    (hne : s = .startField ∨ f ≠ [] ∨ d = ',') (acc : List String) :
    readStream ⟨s, [], acc⟩ (newlineStream (writeField f) ++ some d :: rest) =
      readStream ⟨if d = ',' then .startField else .eatCrnl, [], acc ++ [String.mk f]⟩ rest := by
  unfold writeField
  cases hq : needsQuotes f
  · have hn : '\n' ∉ f := fun h => List.any_eq_false.mp hq _ h (by simp)
    rw [if_neg Bool.false_ne_true, newlineStream_eq_map hn]
    exact readStream_unquotedField rest hs hd hq hlen hne acc
  · exact readStream_quoted rest hs hd hlen acc

end RoundTrip

/-- The reader at a line end after `\n`, outside a quoted field, returns the record. -/
@[simp] theorem readStream_eatCrnl_none (fields : List String) (cs : List (Option Char)) :
    readStream ⟨.eatCrnl, [], fields⟩ (none :: cs) =
      ((readStream .init cs).1.cons fields, (readStream .init cs).2) :=
  rfl

/-- The fields of a row joined by `,`, then the row's line end, read as one record. -/
theorem readStream_intercalate (rest : List (Option Char)) :
    ∀ (row : List String) {s : State} (acc : List String), (s = .startRecord ∨ s = .startField) →
      row ≠ [] → (∀ f ∈ row, f.length ≤ fieldSizeLimit) → (s = .startField ∨ row ≠ [""]) →
      readStream ⟨s, [], acc⟩ (newlineStream ([','].intercalate (row.map fun f => writeField f.toList)) ++
          some '\n' :: none :: rest) =
        ((readStream .init rest).1.cons (acc ++ row), (readStream .init rest).2)
  | [], _, _, _, h, _, _ => absurd rfl h
  | [f], s, acc, hs, _, hlen, hne => by
    have hne' : s = .startField ∨ f.toList ≠ [] ∨ '\n' = ',' := by
      rcases hne with h | h
      · exact .inl h
      · exact .inr (.inl fun hf => h (by rw [show f = "" from String.ext hf]))
    have := readStream_writeField (none :: rest) hs (.inr rfl) (f := f.toList)
      (hlen _ (List.mem_singleton_self _)) hne' acc
    rw [List.map_singleton, show [','].intercalate [writeField f.toList] = writeField f.toList from
      List.append_nil _, this]
    rfl
  | f :: g :: row, s, acc, hs, _, hlen, _ => by
    have ih := readStream_intercalate rest (g :: row) (acc ++ [String.mk f.toList]) (.inr rfl)
      (List.cons_ne_nil _ _) (fun f hf => hlen f (List.mem_cons_of_mem _ hf)) (.inl rfl)
    rw [List.map_cons] at ih
    rw [List.map_cons, List.map_cons, intercalate_cons_cons, newlineStream_append, newlineStream_cons,
      if_neg (by decide), List.append_assoc, List.singleton_append, List.cons_append,
      readStream_writeField _ hs (.inl rfl) (f := f.toList) (hlen f (List.mem_cons_self _ _)) (.inr (.inr rfl)),
      if_pos rfl, ih, List.append_assoc]
    rfl

/-- A row as `writerow` writes it, after universal newlines, reads as one record: the row. -/
theorem readStream_rowBody (row : List String) (hlen : ∀ f ∈ row, f.length ≤ fieldSizeLimit)
    (rest : List (Option Char)) :
    readStream .init (newlineStream (rowBody row ++ ['\n']) ++ rest) =
      ((readStream .init rest).1.cons row, (readStream .init rest).2) := by
  rw [newlineStream_append, List.append_assoc]
  unfold rowBody
  split_ifs with h1
  · subst h1
    exact readStream_quoted (none :: rest) (.inl rfl) (.inr rfl) (f := []) (Nat.zero_le _) []
  · cases row with
    | nil => rfl
    | cons f row =>
      exact readStream_intercalate rest (f :: row) [] (.inl rfl) (List.cons_ne_nil _ _) hlen (.inr h1)

/-- Rows written one after the other, after universal newlines, read back as the rows. -/
theorem readStream_rows :
    ∀ rows : List (List String), (∀ row ∈ rows, ∀ f ∈ row, f.length ≤ fieldSizeLimit) →
      readStream .init (rows.flatMap fun row => newlineStream (rowBody row ++ ['\n'])) = (rows, none)
  | [], _ => rfl
  | row :: rows, h => by
    rw [List.flatMap_cons, readStream_rowBody row (h row (List.mem_cons_self _ _)),
      readStream_rows rows fun r hr => h r (List.mem_cons_of_mem _ hr)]

/-! ### Universal newlines and the file's lines -/

theorem universalNewlines_append {xs : List Char} (h : '\r' ∉ xs) (ys : List Char) :
    universalNewlines (xs ++ ys) = xs ++ universalNewlines ys := by
  induction xs with
  | nil => rfl
  | cons x xs ih =>
    rw [List.mem_cons, not_or] at h
    rw [List.cons_append, List.cons_append, ← ih h.2]
    cases xs ++ ys <;> simp [universalNewlines, Ne.symm h.1]

theorem not_mem_escapeQuotes {c : Char} (hc : c ≠ '"') : ∀ {f : List Char}, c ∉ f → c ∉ escapeQuotes f
  | [], _ => List.not_mem_nil _
  | x :: f, h => by
    rw [List.mem_cons, not_or] at h
    unfold escapeQuotes
    split_ifs <;> simp [h.1, hc, not_mem_escapeQuotes hc h.2]

theorem not_mem_writeField {c : Char} (hc : c ≠ '"') {f : List Char} (h : c ∉ f) : c ∉ writeField f := by
  unfold writeField
  split_ifs
  · simp [hc, not_mem_escapeQuotes hc h]
  · exact h

theorem not_mem_intercalate {c : Char} (hc : c ≠ ',') :
    ∀ {L : List (List Char)}, (∀ l ∈ L, c ∉ l) → c ∉ [','].intercalate L
  | [], _ => List.not_mem_nil _
  | [l], h => by simpa [List.intercalate] using h l (List.mem_singleton_self l)
  | l :: m :: L, h => by
    rw [intercalate_cons_cons]
    simp [hc, h l (List.mem_cons_self _ _),
      not_mem_intercalate hc fun l' hl' => h l' (List.mem_cons_of_mem _ hl')]

theorem not_mem_rowBody {row : List String} (h : ∀ f ∈ row, '\r' ∉ f.toList) : '\r' ∉ rowBody row := by
  unfold rowBody
  split_ifs
  · decide
  · refine not_mem_intercalate (by decide) fun l hl => ?_
    obtain ⟨f, hf, rfl⟩ := List.mem_map.mp hl
    exact not_mem_writeField (by decide) (h f hf)

/-- With no `\r` in the fields, universal newlines only turn each row's `\r\n` into `\n`. -/
theorem universalNewlines_writeRows :
    ∀ rows : List (List String), (∀ row ∈ rows, ∀ f ∈ row, '\r' ∉ f.toList) →
      universalNewlines (rows.flatMap writeRow) = rows.flatMap fun row => rowBody row ++ ['\n']
  | [], _ => rfl
  | row :: rows, h => by
    rw [List.flatMap_cons, List.flatMap_cons, writeRow, List.append_assoc,
      universalNewlines_append (not_mem_rowBody (h row (List.mem_cons_self _ _))), List.append_assoc]
    exact congrArg _ (congrArg _
      (universalNewlines_writeRows rows fun r hr => h r (List.mem_cons_of_mem _ hr)))

theorem flatMap_splitLines (rest : List Char) :
    ∀ (body acc : List Char),
      (splitLines acc (body ++ '\n' :: rest)).flatMap (fun l => l.map some ++ [none]) =
        acc.map some ++ newlineStream (body ++ ['\n']) ++
          (splitLines [] rest).flatMap (fun l => l.map some ++ [none])
  | [], acc => by simp [splitLines, newlineStream_cons]
  | c :: body, acc => by
    by_cases hc : c = '\n'
    · subst hc
      simp [splitLines, flatMap_splitLines rest body [], newlineStream_cons]
    · simp [splitLines, hc, flatMap_splitLines rest body (acc ++ [c]), newlineStream_cons]

theorem flatMap_splitLines_rows :
    ∀ rows : List (List String),
      (splitLines [] (rows.flatMap fun row => rowBody row ++ ['\n'])).flatMap
          (fun l => l.map some ++ [none]) =
        rows.flatMap fun row => newlineStream (rowBody row ++ ['\n'])
  | [] => rfl
  | row :: rows => by
    rw [List.flatMap_cons, List.append_assoc, List.singleton_append, flatMap_splitLines,
      flatMap_splitLines_rows rows, List.flatMap_cons]
    rfl

/-- **The CSV round trip.** Rows written with `csv.writer(f).writerow`, read back with
`csv.reader` from the file opened with universal newlines, are the rows written, with no
error, as long as no field holds `\r` and none is longer than `field_size_limit()`. -/
theorem readLines_writeRows (rows : List (List String))
    (h : ∀ row ∈ rows, ∀ f ∈ row, '\r' ∉ f.toList ∧ f.length ≤ fieldSizeLimit) :
    readLines .init (fileLines (rows.flatMap writeRow)) = (rows, none) := by
  rw [readLines_eq_readStream, fileLines, universalNewlines_writeRows rows fun r hr f hf => (h r hr f hf).1,
    flatMap_splitLines_rows, readStream_rows rows fun r hr f hf => (h r hr f hf).2]

/-- Quoted fields with a delimiter, a quote and a line break, a row of one empty field and an
empty row read back as written. -/
theorem readLines_writeRows_quoted :
    readLines .init (fileLines ([["a,b", "say \"hi\"", "two\nlines"], [""], []].flatMap writeRow)) =
      ([["a,b", "say \"hi\"", "two\nlines"], [""], []], none) :=
  readLines_writeRows _ (by decide)

end JVectorBench.Csv
