import JVectorBench.Indexing

/-!
# JVectorBench.PyInt

Python's conversions between `int` and `str` that the merge log goes through: `str(n)` when
`csv.writer` writes a number (`strInt`), and `int(s)` when `plot_merge_times` reads one back
(`pyInt`), with CPython 3.11's limit of `sys.get_int_max_str_digits()` digits both ways and the
`ValueError` texts, which quote `repr(s)` (`pyRepr`).

`int(s)` is `PyLong_FromUnicodeObject`: the text is made ASCII
(`_PyUnicode_TransformDecimalAndSpaceToASCII`, `asciiChar`), read as a C string up to its first
NUL by `PyLong_FromString` (`longFromString`: white space, a sign, digits with single `_`
between them, white space), and the literal is invalid unless that read the whole text.

`int(str(n)) = n` whenever `str(n)` succeeds (`pyInt_of_strInt`).
-/

namespace JVectorBench

/-- `sys.get_int_max_str_digits()`, at its default. -/
def intMaxStrDigits : Nat := 4300

/-- `str(n)` of an `int`: the decimal digits, after `-` for a negative `n`; more digits than
`sys.get_int_max_str_digits()` raise `ValueError`. -/
def strInt (n : Int) : Except PyError String :=
  if intMaxStrDigits < (Nat.toDigits 10 n.natAbs).length then
    .error (.valueError
      "Exceeds the limit (4300 digits) for integer string conversion; use sys.set_int_max_str_digits() to increase the limit")
  else .ok (toString n)

/-! ## `repr` of a `str` -/

/-- `width` lower-case hexadecimal digits of `n`. -/
def hexDigits (width n : Nat) : List Char :=
  (List.range width).reverse.map fun i => Nat.digitChar (n / 16 ^ i % 16)

/-- What `unicode_repr` writes for `c` between the quotes `q`. Non-ASCII characters are
printable but for the C1 controls, U+00A0 and U+00AD (the rest of the Unicode table of
non-printable characters, written `\u....` or `\U........`, is left out). -/
def reprChar (q c : Char) : List Char :=
  if c = q ∨ c = '\\' then ['\\', c]
  else if c = '\t' then ['\\', 't']
  else if c = '\n' then ['\\', 'n']
  else if c = '\r' then ['\\', 'r']
  else if c.toNat < 0x20 ∨ c.toNat = 0x7f ∨ (0x80 ≤ c.toNat ∧ c.toNat ≤ 0xa0) ∨ c.toNat = 0xad then
    '\\' :: 'x' :: hexDigits 2 c.toNat
  else [c]

/-- `repr(s)`: in single quotes, or in double quotes when `s` holds a single quote and no
double quote. -/
def pyRepr (s : String) : String :=
  let q := if '\x27' ∈ s.toList ∧ '"' ∉ s.toList then '"' else '\x27'
  String.mk (q :: s.toList.flatMap (reprChar q) ++ [q])

/-! ## `int(s)` -/

/-- `Py_ISSPACE`: the white space `PyLong_FromString` skips around the digits. -/
def isSpace (c : Char) : Bool :=
  c = ' ' || c = '\t' || c = '\n' || c = '\x0b' || c = '\x0c' || c = '\r'

/-- The non-ASCII white space of `Py_UNICODE_ISSPACE`. -/
def isUnicodeSpace (c : Char) : Bool :=
  c.toNat = 0x85 || c.toNat = 0xa0 || c.toNat = 0x1680 || (0x2000 ≤ c.toNat && c.toNat ≤ 0x200a) ||
    c.toNat = 0x2028 || c.toNat = 0x2029 || c.toNat = 0x202f || c.toNat = 0x205f || c.toNat = 0x3000

/-- `_PyUnicode_TransformDecimalAndSpaceToASCII` on one character: ASCII is kept, non-ASCII
white space becomes a space and anything else `?` (its mapping of the non-ASCII decimal digits
to ASCII ones is left out). -/
def asciiChar (c : Char) : Char :=
  if c.toNat < 128 then c else if isUnicodeSpace c then ' ' else '?'

/-- The optional sign `PyLong_FromString` reads: whether it is `-`, and the text after it. -/
def splitSign : List Char → Bool × List Char
  | '+' :: cs => (false, cs)
  | '-' :: cs => (true, cs)
  | cs => (false, cs)

/-- The digit loop of `PyLong_FromString` in base 10, from the value and the number of digits
read so far and whether the last character was `_`: the value, the number of digits and the
text after the run of digits and `_`; `none` for `_` after `_` or at the end of the run. -/
def scanDigits (value count : Nat) (underscore : Bool) : List Char → Option (Nat × Nat × List Char)
  | [] => if underscore then none else some (value, count, [])
  | c :: cs =>
    if c.isDigit then scanDigits (10 * value + (c.toNat - '0'.toNat)) (count + 1) false cs
    else if c = '_' then (if underscore then none else scanDigits value count true cs)
    else if underscore then none else some (value, count, c :: cs)

/-- `PyLong_FromString(str, &end, 10)` on the C string `cs`: the value, or the error: `none` for
an invalid literal, `some count` for `count` digits, more than `sys.get_int_max_str_digits()`. -/
def longFromString (cs : List Char) : Except (Option Nat) Int :=
  match splitSign (cs.dropWhile isSpace) with
  | (negative, cs) =>
    if cs.head? = some '_' then .error none
    else match scanDigits 0 0 false cs with
      | none => .error none
      | some (value, count, rest) =>
        if intMaxStrDigits < count then .error (some count)
        else if count = 0 ∨ rest.dropWhile isSpace ≠ [] then .error none
        else .ok (if negative then -(value : Int) else value)

/-- The `ValueError` of an invalid literal, quoting `repr(s)` up to 200 characters. -/
def invalidLiteral (s : String) : PyError :=
  .valueError ("invalid literal for int() with base 10: " ++ String.mk ((pyRepr s).toList.take 200))

/-- `int(s)` of a `str`. -/
def pyInt (s : String) : Except PyError Int :=
  match longFromString ((s.toList.map asciiChar).takeWhile (· != '\x00')) with
  | .ok n => if '\x00' ∈ s.toList.map asciiChar then .error (invalidLiteral s) else .ok n
  | .error none => .error (invalidLiteral s)
  | .error (some count) => .error (.valueError ("Exceeds the limit (4300 digits) for integer " ++
      "string conversion: value has " ++ toString count ++
      " digits; use sys.set_int_max_str_digits() to increase the limit"))

/-! ## `int(str(n)) = n` -/

/-- The digit loop reads a run of digits to its value. -/
theorem scanDigits_of_isDigit :
    ∀ (ds : List Char) (value count : Nat), (∀ c ∈ ds, c.isDigit) →
      scanDigits value count false ds =
        some (ds.foldl (fun v c => 10 * v + (c.toNat - '0'.toNat)) value, count + ds.length, [])
  | [], _, _, _ => rfl
  | d :: ds, value, count, h => by
    rw [scanDigits, if_pos (h d (List.mem_cons_self _ _)),
      scanDigits_of_isDigit ds _ _ fun c hc => h c (List.mem_cons_of_mem _ hc)]
    simp only [List.foldl_cons, List.length_cons, Nat.add_assoc, Nat.add_comm 1]

theorem digitChar_isDigit : ∀ d : Fin 10, (Nat.digitChar d).isDigit := by decide

theorem digitChar_value : ∀ d : Fin 10, (Nat.digitChar d).toNat - '0'.toNat = d := by decide

theorem isDigit_of_mem_toDigits (n : Nat) : ∀ c ∈ Nat.toDigits 10 n, c.isDigit := by
  induction n using Nat.strong_induction_on with
  | _ n ih =>
    rw [toDigits_ten]
    intro c hc
    rcases List.mem_append.mp hc with hc | hc
    · split_ifs at hc with h
      · exact absurd hc (List.not_mem_nil _)
      · exact ih _ (by omega) c hc
    · rw [List.mem_singleton.mp hc]
      exact digitChar_isDigit ⟨n % 10, Nat.mod_lt _ (by decide)⟩

/-- The digits of `n`, read back, are `n`. -/
theorem foldl_toDigits (n : Nat) :
    (Nat.toDigits 10 n).foldl (fun v c => 10 * v + (c.toNat - '0'.toNat)) 0 = n := by
  induction n using Nat.strong_induction_on with
  | _ n ih =>
    have hd : (Nat.digitChar (n % 10)).toNat - '0'.toNat = n % 10 :=
      digitChar_value ⟨n % 10, Nat.mod_lt _ (by decide)⟩
    rw [toDigits_ten, List.foldl_append, List.foldl_cons, List.foldl_nil, hd]
    split_ifs with h
    · simp only [List.foldl_nil]; omega
    · rw [ih _ (by omega)]; omega

theorem asciiChar_of_lt {c : Char} (h : c.toNat < 128) : asciiChar c = c := if_pos h

theorem toNat_lt_of_isDigit {c : Char} (h : c.isDigit) : c.toNat < 128 := by
  simp only [Char.isDigit, Bool.and_eq_true, decide_eq_true_eq] at h
  exact Nat.lt_of_le_of_lt (show c.toNat ≤ 57 from h.2) (by decide)

theorem isSpace_of_isDigit {c : Char} (h : c.isDigit) : isSpace c = false := by
  cases hs : isSpace c
  · rfl
  · simp only [isSpace, Bool.or_eq_true, decide_eq_true_eq] at hs
    rcases hs with (((((rfl | rfl) | rfl) | rfl) | rfl) | rfl) <;> exact absurd h (by decide)

theorem splitSign_of_isDigit {c : Char} (h : c.isDigit) (cs : List Char) :
    splitSign (c :: cs) = (false, c :: cs) := by
  unfold splitSign
  split <;> simp_all

/-- After its sign, `PyLong_FromString` reads the digits of `m` as `m`. -/
theorem longFromString_toDigits {m : Nat} (hlen : (Nat.toDigits 10 m).length ≤ intMaxStrDigits)
    {cs : List Char} {negative : Bool}
    (h : splitSign (cs.dropWhile isSpace) = (negative, Nat.toDigits 10 m)) :
    longFromString cs = .ok (if negative then -(m : Int) else m) := by
  obtain ⟨d, ds, hds⟩ := List.exists_cons_of_ne_nil (toDigits_ne_nil m)
  have hd : d.isDigit := isDigit_of_mem_toDigits m d (hds ▸ List.mem_cons_self _ _)
  unfold longFromString
  rw [h]
  dsimp only
  rw [scanDigits_of_isDigit _ 0 0 (isDigit_of_mem_toDigits m), foldl_toDigits, hds]
  simp only [List.head?_cons, Option.some.injEq, Nat.zero_add, List.dropWhile_nil]
  rw [if_neg fun h => absurd (h ▸ hd) (by decide), ← hds, if_neg (Nat.not_lt.mpr hlen),
    if_neg (by simp [toDigits_ne_nil])]

/-- `int(s)` of an ASCII text without NUL is what `PyLong_FromString` reads. -/
theorem pyInt_of_longFromString {cs : List Char} (hascii : ∀ c ∈ cs, c.toNat < 128)
    (hnul : '\x00' ∉ cs) {n : Int} (h : longFromString cs = .ok n) : pyInt (String.mk cs) = .ok n := by
  have hmap : cs.map asciiChar = cs :=
    (List.map_congr_left fun c hc => asciiChar_of_lt (hascii c hc)).trans (List.map_id cs)
  have htake : cs.takeWhile (· != '\x00') = cs :=
    List.takeWhile_eq_self_iff.mpr fun c hc => bne_iff_ne.mpr fun h => hnul (h ▸ hc)
  unfold pyInt
  rw [show (String.mk cs).toList = cs from rfl, hmap, htake, h]
  exact if_neg hnul

/-- What `str(n)` writes: `-` and decimal digits, one character more than the digit limit at
most. -/
theorem strInt_chars {n : Int} {s : String} (h : strInt n = .ok s) :
    (∀ c ∈ s.toList, c = '-' ∨ c.isDigit) ∧ s.length ≤ intMaxStrDigits + 1 := by
  unfold strInt at h
  split_ifs at h with hlen
  cases h
  have hlen := Nat.not_lt.mp hlen
  cases n with
  | ofNat m => exact ⟨fun c hc => .inr (isDigit_of_mem_toDigits m c hc), Nat.le_succ_of_le hlen⟩
  | negSucc m =>
    refine ⟨fun c hc => ?_, Nat.succ_le_succ hlen⟩
    rcases List.mem_cons.mp hc with hc | hc
    · exact .inl hc
    · exact .inr (isDigit_of_mem_toDigits _ c hc)

/-- `int(str(n)) = n`, whenever `str(n)` does not raise. -/
theorem pyInt_of_strInt {n : Int} {s : String} (h : strInt n = .ok s) : pyInt s = .ok n := by
  have hchars := (strInt_chars h).1
  refine pyInt_of_longFromString
    (fun c hc => (hchars c hc).elim (fun h => by rw [h]; decide) toNat_lt_of_isDigit)
    (fun hc => (hchars _ hc).elim (by decide) (by decide)) ?_
  unfold strInt at h
  split_ifs at h with hlen
  cases h
  have hlen := Nat.not_lt.mp hlen
  cases n with
  | ofNat m =>
    obtain ⟨d, ds, hds⟩ := List.exists_cons_of_ne_nil (toDigits_ne_nil m)
    have hd : d.isDigit := isDigit_of_mem_toDigits m d (hds ▸ List.mem_cons_self _ _)
    refine @longFromString_toDigits m hlen _ false ?_
    change splitSign ((Nat.toDigits 10 m).dropWhile isSpace) = (false, Nat.toDigits 10 m)
    rw [hds, List.dropWhile_cons_of_neg (by simp [isSpace_of_isDigit hd]), splitSign_of_isDigit hd]
  | negSucc m => exact (longFromString_toDigits hlen rfl).trans (by rw [if_pos rfl, Int.negSucc_eq]; rfl)

end JVectorBench
