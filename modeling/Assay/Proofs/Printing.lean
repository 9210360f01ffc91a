/-
# Assay.Proofs.Printing -- what is printed is read back

`print` writes a value and `read?` reads one; `read?_print` says that the second
undoes the first, for every value and whatever bytes its strings hold.

`ReadsBack text value` says that the reader, begun at the text, has read the value
when it stands behind the text, whatever follows it.  The one thing that must not
follow is a byte that a number could go on with (`EndsNumber`); in a printed array or
object a comma or a bracket follows, so the property passes from the parts to the
whole.  The depth that the reader is given need only be the length of the text.

So the plain library is lawful for all values (`plain_lawful`): what theorems ask of a library
is something that a library can do.
-/
import Assay.Json.Plain
import Assay.Proofs.Lexemes
import Mathlib.Data.List.TakeWhile

namespace Assay.Bytes

set_option autoImplicit false

/-! ## Digits -/

theorem ofNat_of_lt {n : Nat} (small : n < 10) : ofNat n = [(48 + n).toUInt8] := by
  have digit : ∀ n < 10, n.digitChar.toNat.toUInt8 = (48 + n).toUInt8 := by decide
  rw [ofNat, Nat.toDigits_of_lt_base small, List.map_singleton, digit n small]

/-- The last digit stands behind the digits of the tenth part. -/
theorem ofNat_of_le {n : Nat} (large : 10 ≤ n) : ofNat n = ofNat (n / 10) ++ ofNat (n % 10) := by
  have below : n % 10 < 10 := Nat.mod_lt n (by decide)
  rw [ofNat, Nat.toDigits_of_base_le (by decide) large, List.map_append, ofNat, ofNat,
    Nat.toDigits_of_lt_base below]

theorem digitsValue_append_digit (digits : Bytes) {digit : Nat} (small : digit < 10) :
    digitsValue (digits ++ ofNat digit) = digitsValue digits * 10 + digit := by
  have value : ∀ digit < 10, ((48 + digit).toUInt8).toNat - 48 = digit := by decide
  rw [ofNat_of_lt small, digitsValue, List.foldl_append, ← digitsValue]
  simp only [List.foldl_cons, List.foldl_nil, value digit small]

theorem digitsValue_ofNat (n : Nat) : digitsValue (ofNat n) = n := by
  induction n using Nat.strongRecOn with
  | ind n ih =>
      by_cases small : n < 10
      · simpa [digitsValue] using digitsValue_append_digit [] small
      · have large : 10 ≤ n := Nat.le_of_not_lt small
        rw [ofNat_of_le large, digitsValue_append_digit _ (Nat.mod_lt n (by decide)),
          ih (n / 10) (Nat.div_lt_self (by omega) (by decide))]
        exact Nat.div_add_mod' n 10

/-- Only zero is written with a zero in front. -/
theorem head?_ofNat_ne_zero {n : Nat} (positive : 0 < n) : (ofNat n).head? ≠ some 48 := by
  have notZero : ∀ n < 10, 0 < n → (48 + n).toUInt8 ≠ 48 := by decide
  induction n using Nat.strongRecOn with
  | ind n ih =>
      by_cases small : n < 10
      · simpa [ofNat_of_lt small] using notZero n small positive
      · have large : 10 ≤ n := Nat.le_of_not_lt small
        have fewer := ih (n / 10) (Nat.div_lt_self positive (by decide)) (by omega)
        rw [ofNat_of_le large, List.head?_append]
        cases front : ofNat (n / 10) with
        | nil => exact absurd front (ofNat_ne_nil _)
        | cons b rest => simpa [front] using fewer

end Assay.Bytes

namespace Assay.Json

set_option autoImplicit false

open Bytes Shell

/-! ## Strings -/

theorem backslash_ne_doubleQuote : backslash ≠ doubleQuote := by
  decide

/-- A byte stands for itself, or is escaped by a letter, or by its number. -/
theorem escapeByte_forms (b : UInt8) :
    (∃ letter, escapeByte b = [backslash, letter] ∧ letter ≠ 117 ∧ plainEscape? letter = some b) ∨
      (escapeByte b =
        [backslash, 117, 48, 48, hexDigit (b.toNat / 16), hexDigit (b.toNat % 16)] ∧ b < 32) ∨
      (escapeByte b = [b] ∧ b ≠ doubleQuote ∧ b ≠ backslash ∧ ¬ b < 32) := by
  unfold escapeByte
  split
  · rename_i quote
    subst quote
    exact Or.inl ⟨doubleQuote, rfl, by decide, rfl⟩
  rename_i notQuote
  split
  · rename_i slanted
    subst slanted
    exact Or.inl ⟨backslash, rfl, by decide, rfl⟩
  rename_i notSlanted
  -- the five control bytes that have a letter of their own
  iterate 5
    split
    · rename_i named
      subst named
      exact Or.inl ⟨_, rfl, by decide, rfl⟩
  split
  · rename_i low
    exact Or.inr (Or.inl ⟨rfl, low⟩)
  · rename_i high
    exact Or.inr (Or.inr ⟨rfl, notQuote, notSlanted, high⟩)

/-- The number of a control byte is a code point of one byte, and no surrogate. -/
theorem hexUnit?_control {b : UInt8} (low : b < 32) :
    hexUnit? 48 48 (hexDigit (b.toNat / 16)) (hexDigit (b.toNat % 16)) = some b.toNat ∧
      isHighSurrogate b.toNat = false ∧ isLowSurrogate b.toNat = false ∧
      encodePoint b.toNat = [b] := by
  revert low
  refine forall_byte (p := fun b => b < 32 →
    hexUnit? 48 48 (hexDigit (b.toNat / 16)) (hexDigit (b.toNat % 16)) = some b.toNat ∧
      isHighSurrogate b.toNat = false ∧ isLowSurrogate b.toNat = false ∧
      encodePoint b.toNat = [b]) ?_ b
  decide +kernel

/-- A byte of a string is read back from what stands for it. -/
theorem readString_escapeByte (b : UInt8) (rest : Bytes) :
    readString (escapeByte b ++ rest) = withFront [b] (readString rest) := by
  rcases escapeByte_forms b with ⟨letter, form, notNumbered, stands⟩ | ⟨form, low⟩ |
    ⟨form, notQuote, notSlanted, high⟩
  · rw [form, List.cons_append, List.singleton_append, readString.eq_def]
    simp only [backslash_ne_doubleQuote, notNumbered, stands, if_false, if_true]
  · obtain ⟨unit, notHigh, notLow, encoded⟩ := hexUnit?_control low
    rw [form]
    simp only [List.cons_append, List.nil_append]
    rw [readString.eq_def]
    simp only [backslash_ne_doubleQuote, unit, notHigh, notLow, encoded, Bool.false_eq_true,
      if_false, if_true]
  · rw [form, List.singleton_append, readString.eq_def]
    simp only [notQuote, notSlanted, high, if_false]

/-- **A printed string is read back**, whatever bytes it holds and whatever follows. -/
theorem readString_flatMap_escapeByte (text rest : Bytes) :
    readString (text.flatMap escapeByte ++ doubleQuote :: rest) = some (text, rest) := by
  induction text with
  | nil =>
      rw [List.flatMap_nil, List.nil_append, readString.eq_def]
      simp only [if_true]
  | cons b more ih =>
      rw [List.flatMap_cons, List.append_assoc, readString_escapeByte, ih]
      rfl

theorem printString_append (text rest : Bytes) :
    printString text ++ rest =
      doubleQuote :: (text.flatMap escapeByte ++ doubleQuote :: rest) := by
  simp [printString]

/-! ## Numbers -/

/-- No number goes on at the front of this text. -/
def EndsNumber (text : Bytes) : Prop :=
  ∀ b ∈ text.head?, isNumberByte b = false

theorem endsNumber_cons {b : UInt8} (other : isNumberByte b = false) (rest : Bytes) :
    EndsNumber (b :: rest) := by
  intro c first
  cases first
  exact other

/-- A number is written with these bytes, and begins with a digit or a minus sign. -/
structure Numeral (text : Bytes) : Prop where
  bytes : ∀ b ∈ text, isNumberByte b = true
  opens : ∃ b rest, text = b :: rest ∧ (isDigit b = true ∨ b = 45)

theorem isNumberByte_of_isDigit {b : UInt8} (digit : isDigit b = true) : isNumberByte b = true := by
  simp [isNumberByte, digit]

/-- The bytes of a text that may begin with a minus sign are that sign and the rest. -/
theorem mem_of_dropMinus {text : Bytes} {b : UInt8} (isIn : b ∈ text) :
    b = 45 ∨ b ∈ dropMinus text := by
  unfold dropMinus
  split
  · rename_i minus
    cases text with
    | nil => cases isIn
    | cons first rest =>
        cases minus
        exact (List.mem_cons.1 isIn)
  · exact Or.inr isIn

/-- With a digit behind the minus sign, or in front, a text of number bytes is a numeral. -/
theorem Numeral.of_dropMinus {text : Bytes} {digit : UInt8} {rest : Bytes}
    (unsigned : dropMinus text = digit :: rest) (isDigit' : isDigit digit = true)
    (bytes : ∀ b ∈ dropMinus text, isNumberByte b = true) : Numeral text where
  bytes := by
    intro b isIn
    rcases mem_of_dropMinus isIn with rfl | isIn
    · decide
    · exact bytes b isIn
  opens := by
    cases text with
    | nil => cases unsigned
    | cons first more =>
        refine ⟨first, more, rfl, ?_⟩
        by_cases minus : first = 45
        · exact Or.inr minus
        · have whole : dropMinus (first :: more) = first :: more := by simp [dropMinus, minus]
          rw [whole] at unsigned
          cases unsigned
          exact Or.inl isDigit'

theorem isNumberByte_of_mem_exponent {text : Bytes} (exponent : isExponent text = true) :
    ∀ b ∈ text, isNumberByte b = true := by
  cases text with
  | nil => simp
  | cons mark rest =>
      simp only [isExponent, Bool.and_eq_true, Bool.or_eq_true, beq_iff_eq, List.all_eq_true]
        at exponent
      obtain ⟨⟨marks, -⟩, digits⟩ := exponent
      intro b isIn
      rcases List.mem_cons.1 isIn with rfl | isIn
      · rcases marks with rfl | rfl <;> decide
      · cases rest with
        | nil => cases isIn
        | cons sign more =>
            split at digits
            · rename_i signed
              rcases List.mem_cons.1 isIn with rfl | isIn
              · rcases signed with plus | minus
                · cases plus
                  decide
                · cases minus
                  decide
              · exact isNumberByte_of_isDigit (digits b isIn)
            · exact isNumberByte_of_isDigit (digits b isIn)

theorem isNumberByte_of_mem_fraction {text : Bytes} (fraction : isFraction text = true) :
    ∀ b ∈ text, isNumberByte b = true := by
  cases text with
  | nil => cases fraction
  | cons mark rest =>
      rw [isFraction] at fraction
      split at fraction
      · rename_i point
        rw [Bool.and_eq_true] at fraction
        intro b isIn
        rcases List.mem_cons.1 isIn with rfl | isIn
        · rw [point]
          decide
        · rw [← List.takeWhile_append_dropWhile (p := isDigit) (l := rest)] at isIn
          rcases List.mem_append.1 isIn with digit | behind
          · exact isNumberByte_of_isDigit (List.mem_takeWhile_imp digit)
          · exact isNumberByte_of_mem_exponent fraction.2 b behind
      · exact isNumberByte_of_mem_exponent fraction

theorem dropMinus_ofInt (value : Int) : dropMinus (ofInt value) = ofNat value.natAbs := by
  cases value with
  | ofNat n =>
      have unsigned : (ofNat n).head? ≠ some 45 := by
        intro minus
        have digit := ofNat_digits n 45 (List.mem_of_mem_head? minus)
        exact absurd digit (by decide)
      simp [dropMinus, ofInt, unsigned]
  | negSucc n => simp [dropMinus, ofInt]

theorem numeral_ofInt (value : Int) : Numeral (ofInt value) := by
  have unsigned := dropMinus_ofInt value
  have digits := ofNat_digits value.natAbs
  cases shape : ofNat value.natAbs with
  | nil => exact absurd shape (ofNat_ne_nil _)
  | cons b rest =>
      rw [shape] at digits unsigned
      refine Numeral.of_dropMinus unsigned (digits b List.mem_cons_self) ?_
      rw [unsigned]
      exact fun c isIn => isNumberByte_of_isDigit (digits c isIn)

theorem isWhole_ofInt (value : Int) : isWhole (ofInt value) = true := by
  have plain : isPlainWhole (ofNat value.natAbs) = true := by
    rcases Nat.eq_zero_or_pos value.natAbs with zero | positive
    · rw [zero]
      decide
    · simp [isPlainWhole, ofNat_ne_nil, head?_ofNat_ne_zero positive]
  simp only [isWhole, dropMinus_ofInt, plain, Bool.and_true, List.all_eq_true]
  exact ofNat_digits _

theorem wholeValue_ofInt (value : Int) : wholeValue (ofInt value) = value := by
  have unsigned := dropMinus_ofInt value
  unfold wholeValue
  cases value with
  | ofNat n =>
      split
      · rename_i minus
        have digit := ofNat_digits n 45 (List.mem_of_mem_head? minus)
        exact absurd digit (by decide)
      · simp [ofInt, digitsValue_ofNat]
  | negSucc n => simp [ofInt, digitsValue_ofNat, Int.negSucc_eq]

theorem number?_ofInt (value : Int) : number? (ofInt value) = some (int value) := by
  rw [number?, if_pos (isWhole_ofInt value), wholeValue_ofInt]

theorem numeral_decimal (value : Decimal) : Numeral value.text := by
  have valid := value.valid
  simp only [isDecimal, isPlainWhole, Bool.and_eq_true] at valid
  obtain ⟨⟨some', -⟩, fraction⟩ := valid
  have split := List.takeWhile_append_dropWhile (p := isDigit) (l := dropMinus value.text)
  cases shape : (dropMinus value.text).takeWhile isDigit with
  | nil => simp [shape] at some'
  | cons digit more =>
      have first : isDigit digit = true :=
        List.mem_takeWhile_imp (shape ▸ List.mem_cons_self)
      rw [shape, List.cons_append] at split
      refine Numeral.of_dropMinus split.symm first fun b isIn => ?_
      rw [← List.takeWhile_append_dropWhile (p := isDigit) (l := dropMinus value.text)] at isIn
      rcases List.mem_append.1 isIn with digit | behind
      · exact isNumberByte_of_isDigit (List.mem_takeWhile_imp digit)
      · exact isNumberByte_of_mem_fraction fraction b behind

/-- A number that has a fraction or an exponent is not whole. -/
theorem number?_decimal (value : Decimal) : number? value.text = some (decimal value) := by
  have notWhole : isWhole value.text = false := by
    have valid := value.valid
    simp only [isDecimal, Bool.and_eq_true] at valid
    refine Bool.eq_false_iff.2 fun whole => ?_
    simp only [isWhole, Bool.and_eq_true, List.all_eq_true] at whole
    have nothing : (dropMinus value.text).dropWhile isDigit = [] :=
      List.dropWhile_eq_nil_iff.2 whole.1
    rw [nothing] at valid
    exact absurd valid.2 (by decide)
  rw [number?, if_neg (by simp [notWhole]), dif_pos value.valid]

/-! ## Values -/

/-- The reader, begun at this text, has read this value when it stands behind it. -/
def ReadsBack (text : Bytes) (value : Json) : Prop :=
  ∀ (depth : Nat) (rest : Bytes), text.length ≤ depth → EndsNumber rest →
    readValue depth (text ++ rest) = some (value, rest)

theorem readsBack_number {text : Bytes} {value : Json} (numeral : Numeral text)
    (number : number? text = some value) : ReadsBack text value := by
  intro depth rest enough ends
  obtain ⟨b, more, rfl, opens⟩ := numeral.opens
  have plain : b ≠ doubleQuote ∧ b ≠ 91 ∧ b ≠ 123 ∧ b ≠ 110 ∧ b ≠ 116 ∧ b ≠ 102 := by
    revert opens
    refine forall_byte (p := fun b => isDigit b = true ∨ b = 45 →
      b ≠ doubleQuote ∧ b ≠ 91 ∧ b ≠ 123 ∧ b ≠ 110 ∧ b ≠ 116 ∧ b ≠ 102) ?_ b
    decide +kernel
  obtain ⟨notQuote, notArray, notObject, notNull, notTrue, notFalse⟩ := plain
  have taken : (b :: more ++ rest).takeWhile isNumberByte = b :: more := by
    rw [List.takeWhile_append_of_pos numeral.bytes]
    cases rest with
    | nil => simp
    | cons c last => simp [ends c rfl]
  have left : (b :: more ++ rest).dropWhile isNumberByte = rest := by
    rw [List.dropWhile_append_of_pos numeral.bytes]
    cases rest with
    | nil => simp
    | cons c last => simp [ends c rfl]
  cases depth with
  | zero => cases enough
  | succ depth =>
      rw [List.cons_append] at taken left ⊢
      rw [readValue]
      simp only [notQuote, notArray, notObject, notNull, notTrue, notFalse, if_false, taken, left,
        number, Option.map_some]

theorem readsBack_string (text : Bytes) : ReadsBack (printString text) (string text) := by
  intro depth rest enough ends
  cases depth with
  | zero => cases enough
  | succ depth =>
      rw [printString_append, readValue]
      simp only [if_true, readString_flatMap_escapeByte, Option.map_some]

/-- A value is printed from a byte on that is no blank, ends no array and begins no mark. -/
theorem print_opens (value : Json) :
    ∃ b rest, print value = b :: rest ∧ isGap b = false ∧ b ≠ 93 ∧ b ≠ 0xEF := by
  have ofNumeral : ∀ {text}, Numeral text →
      ∃ b rest, text = b :: rest ∧ isGap b = false ∧ b ≠ 93 ∧ b ≠ 0xEF := by
    intro text numeral
    obtain ⟨b, rest, shape, opens⟩ := numeral.opens
    refine ⟨b, rest, shape, ?_⟩
    revert opens
    refine forall_byte (p := fun b =>
      isDigit b = true ∨ b = 45 → isGap b = false ∧ b ≠ 93 ∧ b ≠ 0xEF) ?_ b
    decide +kernel
  cases value with
  | null => exact ⟨_, _, rfl, rfl, by decide⟩
  | bool value => cases value <;> exact ⟨_, _, rfl, rfl, by decide⟩
  | int value =>
      rw [print]
      exact ofNumeral (numeral_ofInt value)
  | decimal value =>
      rw [print]
      exact ofNumeral (numeral_decimal value)
  | string value =>
      rw [print]
      exact ⟨_, _, rfl, rfl, by decide⟩
  | array items =>
      cases items with
      | nil => exact ⟨_, _, rfl, rfl, by decide⟩
      | cons item items =>
          rw [print]
          exact ⟨_, _, rfl, rfl, by decide⟩
  | object members =>
      cases members with
      | nil => exact ⟨_, _, rfl, rfl, by decide⟩
      | cons member members =>
          rw [print]
          exact ⟨_, _, rfl, rfl, by decide⟩

theorem skipGap_cons {b : UInt8} (plain : isGap b = false) (rest : Bytes) :
    skipGap (b :: rest) = b :: rest := by
  simp [skipGap, plain]

theorem skipGap_print (value : Json) (rest : Bytes) :
    skipGap (print value ++ rest) = print value ++ rest := by
  obtain ⟨b, more, shape, plain, -⟩ := print_opens value
  rw [shape, List.cons_append, skipGap_cons plain]

/-- A text that is read at any depth but zero. -/
theorem readsBack_closed {text : Bytes} {value : Json}
    (reads : ∀ depth rest, readValue (depth + 1) (text ++ rest) = some (value, rest))
    (nonempty : text ≠ []) : ReadsBack text value := by
  intro depth rest enough ends
  cases depth with
  | zero => exact absurd (List.eq_nil_of_length_eq_zero (Nat.le_zero.1 enough)) nonempty
  | succ depth => exact reads depth rest

/-! ## Arrays and objects -/

/-- The reader of an array, begun at an item that is read back, reads that item and
these behind it. -/
def ReadsItems (items : List Json) : Prop :=
  ∀ (item : Json) (depth : Nat) (rest : Bytes), ReadsBack (print item) item →
    (print item).length + (printItems items).length ≤ depth →
      readItems depth (print item ++ (printItems items ++ rest)) = some (item :: items, rest)

/-- The reader of an object, begun at a member whose value is read back, reads that
member and these behind it. -/
def ReadsMembers (members : List (Bytes × Json)) : Prop :=
  ∀ (name : Bytes) (value : Json) (depth : Nat) (rest : Bytes), ReadsBack (print value) value →
    (print value).length + (printMembers members).length < depth →
      readMembers depth (printString name ++ colon :: (print value ++ (printMembers members ++ rest))) =
        some ((name, value) :: members, rest)

theorem readsItems_nil : ReadsItems [] := by
  intro item depth rest first enough
  cases depth with
  | zero => simp [printItems] at enough
  | succ depth =>
      rw [printItems, List.length_singleton] at enough
      rw [readItems, printItems, List.singleton_append,
        first depth _ (Nat.le_of_succ_le_succ enough) (endsNumber_cons (by decide) rest)]
      dsimp only
      rw [skipGap_cons (by decide)]
      simp only [if_true]

theorem readsItems_cons {next : Json} {items : List Json} (second : ReadsBack (print next) next)
    (ih : ReadsItems items) : ReadsItems (next :: items) := by
  intro item depth rest first enough
  rw [printItems] at enough ⊢
  simp only [List.length_cons, List.length_append] at enough
  simp only [List.cons_append, List.append_assoc]
  cases depth with
  | zero => omega
  | succ depth =>
      have more := ih next depth rest second (by omega)
      rw [readItems, first depth _ (by omega) (endsNumber_cons (by decide) _)]
      dsimp only
      rw [skipGap_cons (by decide)]
      simp only [show comma ≠ 93 by decide, if_false, if_true, skipGap_print, more, Option.map_some]

/-- What is made of a member and of the text behind it. -/
def membersAfter (depth : Nat) (name : Bytes) (value : Json) (text : Bytes) :
    Option (List (Bytes × Json) × Bytes) :=
  match skipGap text with
  | [] => none
  | b :: more =>
      if b = 125 then some ([(name, value)], more)
      else if b = comma then
        (readMembers depth (skipGap more)).map fun found => ((name, value) :: found.1, found.2)
      else none

theorem readMembers_name (name : Bytes) (value : Json) {depth : Nat} {rest : Bytes}
    (first : ReadsBack (print value) value) (enough : (print value).length ≤ depth)
    (ends : EndsNumber rest) :
    readMembers (depth + 1) (printString name ++ colon :: (print value ++ rest)) =
      membersAfter depth name value rest := by
  rw [printString_append, readMembers]
  simp only [if_true, readString_flatMap_escapeByte]
  rw [skipGap_cons (by decide)]
  simp only [if_true, skipGap_print, first depth rest enough ends]
  rfl

theorem readsMembers_nil : ReadsMembers [] := by
  intro name value depth rest first enough
  cases depth with
  | zero => cases enough
  | succ depth =>
      rw [printMembers, List.length_singleton] at enough
      rw [printMembers, List.singleton_append,
        readMembers_name name value first (by omega) (endsNumber_cons (by decide) rest),
        membersAfter, skipGap_cons (by decide)]
      simp only [if_true]

theorem readsMembers_cons {nextName : Bytes} {next : Json} {members : List (Bytes × Json)}
    (second : ReadsBack (print next) next) (ih : ReadsMembers members) :
    ReadsMembers ((nextName, next) :: members) := by
  intro name value depth rest first enough
  rw [printMembers] at enough ⊢
  simp only [List.length_cons, List.length_append] at enough
  simp only [List.cons_append, List.append_assoc]
  cases depth with
  | zero => omega
  | succ depth =>
      have more := ih nextName next depth rest second (by omega)
      have named : ∀ text, skipGap (printString nextName ++ text) = printString nextName ++ text :=
        fun text => skipGap_cons (by decide) _
      rw [readMembers_name name value first (by omega) (endsNumber_cons (by decide) _),
        membersAfter, skipGap_cons (by decide)]
      simp only [show comma ≠ 125 by decide, if_false, if_true, named, more, Option.map_some]

theorem readsBack_array {item : Json} {items : List Json} (first : ReadsBack (print item) item)
    (behind : ReadsItems items) : ReadsBack (print (array (item :: items))) (array (item :: items)) := by
  intro depth rest enough ends
  obtain ⟨b, more, shape, -, notEnd, -⟩ := print_opens item
  rw [print] at enough ⊢
  simp only [List.length_cons, List.length_append] at enough
  cases depth with
  | zero => omega
  | succ depth =>
      have items' := behind item depth rest first (by omega)
      simp only [List.cons_append, List.append_assoc]
      rw [readValue]
      simp only [show (91 : UInt8) ≠ doubleQuote by decide, if_false, if_true, skipGap_print]
      rw [shape, List.cons_append] at items' ⊢
      simp only [notEnd, if_false, items', Option.map_some]

theorem readsBack_object {name : Bytes} {value : Json} {members : List (Bytes × Json)}
    (first : ReadsBack (print value) value) (behind : ReadsMembers members) :
    ReadsBack (print (object ((name, value) :: members))) (object ((name, value) :: members)) := by
  intro depth rest enough ends
  rw [print] at enough ⊢
  simp only [List.length_cons, List.length_append, printString] at enough
  cases depth with
  | zero => omega
  | succ depth =>
      have members' := behind name value depth rest first (by omega)
      simp only [List.cons_append, List.append_assoc]
      rw [readValue]
      simp only [show (123 : UInt8) ≠ doubleQuote by decide, show (123 : UInt8) ≠ 91 by decide,
        if_false, if_true]
      rw [printString_append] at members' ⊢
      rw [skipGap_cons (by decide)]
      simp only [show doubleQuote ≠ 125 by decide, if_false, members', Option.map_some]

/-- Every value is read back from its print. -/
theorem readsBack_print (value : Json) : ReadsBack (print value) value := by
  refine print.induct (fun value => ReadsBack (print value) value) ReadsMembers ReadsItems
    ?null ?yes ?no ?whole ?decimal ?string ?emptyArray ?array ?emptyObject ?object
    ?lastItem ?item ?lastMember ?member value
  case null => exact readsBack_closed (fun _ _ => rfl) (by decide)
  case yes => exact readsBack_closed (fun _ _ => rfl) (by decide)
  case no => exact readsBack_closed (fun _ _ => rfl) (by decide)
  case whole =>
    intro value
    rw [print]
    exact readsBack_number (numeral_ofInt value) (number?_ofInt value)
  case decimal =>
    intro value
    rw [print]
    exact readsBack_number (numeral_decimal value) (number?_decimal value)
  case string =>
    intro value
    rw [print]
    exact readsBack_string value
  case emptyArray => exact readsBack_closed (fun _ _ => rfl) (by decide)
  case array => exact fun item items first behind => readsBack_array first behind
  case emptyObject => exact readsBack_closed (fun _ _ => rfl) (by decide)
  case object => exact fun name value members first behind => readsBack_object first behind
  case lastItem => exact readsItems_nil
  case item => exact fun item items first behind => readsItems_cons first behind
  case lastMember => exact readsMembers_nil
  case member => exact fun name value members first behind => readsMembers_cons first behind

/-- **What is printed is read back**: the text of a value is the text of that value
alone. -/
theorem read?_print (value : Json) : read? (print value) = some value := by
  have whole := readsBack_print value (2 * (print value).length + 2) [] (by omega)
    (fun b first => by cases first)
  have opens := skipGap_print value []
  rw [List.append_nil] at whole opens
  rw [read?, opens, whole]
  rfl

/-! ## The plain library -/

theorem dropMark_print (value : Json) : dropMark (print value) = print value := by
  obtain ⟨b, rest, shape, -, -, notMark⟩ := print_opens value
  rw [dropMark, shape, if_neg]
  simp [startsWith, byteOrderMark, Ne.symm notMark]

theorem ifText_eq_ok_iff {value : Json} {whole text : Bytes} :
    ifText value whole = .ok text ↔ value.isText = true ∧ whole = text := by
  unfold ifText
  cases value.isText <;> simp

/-- What is relied on of a library is no more than the plain one does, for every value. -/
theorem plain_lawful : plain.Lawful fun _ => True where
  parsed text value read := ⟨trivial, (Option.filter_eq_some_iff.1 read).2⟩
  member _ _ _ _ _ := trivial
  setMember _ _ _ _ := trivial
  dumped value _ := by simp only [plain, ifText_eq_ok_iff, exists_and_left, exists_eq', and_true]
  parse_dump value text _ dumped := by
    obtain ⟨isText, rfl⟩ := ifText_eq_ok_iff.1 dumped
    change (read? (dropMark (print value))).filter Json.isText = some value
    rw [dropMark_print, read?_print]
    exact Option.filter_eq_some_iff.2 ⟨rfl, isText⟩

end Assay.Json
