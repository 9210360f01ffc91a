/-
# Assay.Proofs.Lexemes -- the words and operators of a line for the shell

A shell cuts a line at the operators that stand outside quotations, and reads what
lies between two of them as words.  `stretches` makes the cuts, byte by byte over the
state `Quoting`, and `lexemes` reads the words; neither knows how a line was put
together.

`Passes state text after` says that a reader who begins a text in one state meets no
operator in it and stands behind it in another.  Passing composes along a
concatenation (`Passes.append`), so that each seam of a line is a state to name, and
quoted words pass from outside to outside whatever bytes they hold
(`passes_quoteWords`).  The line that releases a container is made of such rows of
words and of its own operators; hence it reads as those words and those operators for
every configuration (`lexemes_releaseLine`).
-/
import Assay.Container.Config
import Assay.Proofs.Words

namespace Assay.Shell

set_option autoImplicit false

open Bytes

/-! ## Reading a line -/

/-- Where a reader stands with regard to quotations. -/
inductive Quoting where
  | outside
  /-- Behind a backslash outside quotations. -/
  | escaped
  | inSingle
  | inDouble
  /-- Behind a backslash between double quotes. -/
  | escapedInDouble
  deriving DecidableEq, Repr

/-- The bytes that are operators where no quotation covers them. -/
def isOperator (b : UInt8) : Bool :=
  (ascii "()|&;<>").elem b || b == dollar || b == backtick || b == newline

namespace Quoting

/-- The state behind a byte. -/
def next : Quoting → UInt8 → Quoting
  | outside, b =>
      if b = backslash then escaped
      else if b = singleQuote then inSingle
      else if b = doubleQuote then inDouble
      else outside
  | escaped, _ => outside
  | inSingle, b => if b = singleQuote then outside else inSingle
  | inDouble, b =>
      if b = backslash then escapedInDouble else if b = doubleQuote then outside else inDouble
  | escapedInDouble, _ => inDouble

/-- Whether a byte acts as an operator in a state.  Double quotes do not cover the
dollar sign and the backtick. -/
def exposes : Quoting → UInt8 → Bool
  | outside, b => isOperator b
  | inDouble, b => b == dollar || b == backtick
  | _, _ => false

end Quoting

/-- A line cut at its operators: what stands before the first, and each operator with
what stands behind it. -/
def stretches : Quoting → Bytes → Bytes × List (UInt8 × Bytes)
  | _, [] => ([], [])
  | state, b :: rest =>
      let (first, behind) := stretches (state.next b) rest
      if state.exposes b then ([], (b, first) :: behind) else (b :: first, behind)

/-- What a line is made of. -/
inductive Lexeme where
  | word (text : Bytes)
  | operator (sign : UInt8)
  deriving DecidableEq, Repr

/-- Operators of one byte each, with no words between them. -/
def Lexeme.signs (text : Bytes) : List Lexeme :=
  text.map .operator

/-- The words of a first stretch, then each operator and the words of the stretch behind it. -/
def lexemesOf : Bytes → List (UInt8 × Bytes) → Except WordError (List Lexeme)
  | stretch, [] => (splitWords stretch).map (·.map .word)
  | stretch, (sign, next) :: behind => do
      let words ← splitWords stretch
      let more ← lexemesOf next behind
      return words.map .word ++ .operator sign :: more

/-- The words and operators of a line, in order. -/
def lexemes (line : Bytes) : Except WordError (List Lexeme) :=
  let (first, behind) := stretches .outside line
  lexemesOf first behind

/-! ## Passing through a text -/

/-- A reader in `state` finds no operator in the text, and is in `after` behind it. -/
def Passes (state : Quoting) (text : Bytes) (after : Quoting) : Prop :=
  ∀ rest, stretches state (text ++ rest) =
    (text ++ (stretches after rest).1, (stretches after rest).2)

theorem Passes.nil (state : Quoting) : Passes state [] state :=
  fun _ => rfl

theorem Passes.append {state between after : Quoting} {front back : Bytes}
    (first : Passes state front between) (second : Passes between back after) :
    Passes state (front ++ back) after := by
  intro rest
  rw [List.append_assoc, first, second, List.append_assoc]

theorem Passes.byte {state : Quoting} {b : UInt8} (covered : state.exposes b = false) :
    Passes state [b] (state.next b) := by
  intro rest
  rw [List.singleton_append, stretches]
  simp [covered]

theorem Passes.cons {state after : Quoting} {b : UInt8} {text : Bytes}
    (covered : state.exposes b = false) (more : Passes (state.next b) text after) :
    Passes state (b :: text) after :=
  (Passes.byte covered).append more

theorem next_operator {b : UInt8} (isSign : isOperator b = true) :
    Quoting.outside.next b = .outside := by
  revert isSign
  refine forall_byte (p := fun b => isOperator b = true → Quoting.outside.next b = .outside) ?_ b
  decide +kernel

/-! ## Rows of words -/

theorem quoteWords_singleton (word : Bytes) : quoteWords [word] = quoteWord word := by
  simp [quoteWords, join]

/-- No two words are quoted alike. -/
theorem quoteWord_injective {word other : Bytes} (same : quoteWord word = quoteWord other) :
    word = other := by
  have read := splitWords_quoteWords [word]
  rw [quoteWords_singleton, same, ← quoteWords_singleton, splitWords_quoteWords] at read
  cases read
  rfl

theorem quoteWords_append {front back : List Bytes} (begun : front ≠ []) (goesOn : back ≠ []) :
    quoteWords (front ++ back) = quoteWords front ++ space :: quoteWords back := by
  obtain ⟨next, others, rfl⟩ := List.exists_cons_of_ne_nil goesOn
  induction front with
  | nil => exact absurd rfl begun
  | cons first more ih =>
      cases more with
      | nil => rw [List.singleton_append, quoteWords_cons_cons, quoteWords_singleton]
      | cons second more =>
          rw [List.cons_append, List.cons_append, quoteWords_cons_cons, quoteWords_cons_cons,
            ← List.cons_append, ih (List.cons_ne_nil second more)]
          simp

/-! ## Words that are passed -/

theorem bare_passes {b : UInt8} (bare : isBare b = true) :
    Quoting.outside.exposes b = false ∧ Quoting.outside.next b = .outside := by
  revert bare
  refine forall_byte (p := fun b => isBare b = true →
    Quoting.outside.exposes b = false ∧ Quoting.outside.next b = .outside) ?_ b
  decide +kernel

theorem passes_bareWord {bytes : Bytes} (bare : ∀ b ∈ bytes, isBare b = true) :
    Passes .outside bytes .outside := by
  induction bytes with
  | nil => exact Passes.nil .outside
  | cons b more ih =>
      obtain ⟨covered, same⟩ := bare_passes (bare b List.mem_cons_self)
      refine Passes.cons covered ?_
      rw [same]
      exact ih fun c member => bare c (List.mem_cons_of_mem b member)

/-- The inside of a quotation, its quotes escaped, is passed between single quotes. -/
theorem passes_quotation (bytes : Bytes) :
    Passes .inSingle (replaceAll bytes [singleQuote] (ascii "'\\''")) .inSingle := by
  rw [replaceAll_singleton]
  induction bytes with
  | nil => exact Passes.nil .inSingle
  | cons b rest ih =>
      rw [List.flatMap_cons]
      refine Passes.append ?_ ih
      by_cases quote : b = singleQuote
      · rw [if_pos quote]
        -- out of the quotation, the escaped quote, and into the next one
        exact .cons rfl (.cons rfl (.cons rfl (.cons rfl (Passes.nil _))))
      · have passed : Passes .inSingle [b] (Quoting.inSingle.next b) := .byte rfl
        rw [show Quoting.inSingle.next b = .inSingle from if_neg quote] at passed
        rw [if_neg quote]
        exact passed

theorem passes_quoteWord (word : Bytes) : Passes .outside (quoteWord word) .outside := by
  unfold quoteWord
  split
  · exact .cons rfl (.cons rfl (Passes.nil _))
  · split
    · rename_i bare
      exact passes_bareWord (List.all_eq_true.1 bare)
    · refine Passes.cons rfl ((passes_quotation word).append ?_)
      exact Passes.byte rfl

/-- **A row of quoted words holds no operator**, whatever bytes the words hold. -/
theorem passes_quoteWords (words : List Bytes) : Passes .outside (quoteWords words) .outside := by
  induction words with
  | nil => exact Passes.nil .outside
  | cons first more ih =>
      cases more with
      | nil =>
          rw [quoteWords_singleton]
          exact passes_quoteWord first
      | cons second more =>
          rw [quoteWords_cons_cons]
          exact (passes_quoteWord first).append (.cons rfl ih)

/-! ## Rows between operators -/

/-- The text holds these words and no operator, and leaves no quotation open. -/
structure Row (text : Bytes) (words : List Bytes) : Prop where
  passes : Passes .outside text .outside
  read : splitWords text = .ok words

theorem row_quoteWords (words : List Bytes) : Row (quoteWords words) words :=
  ⟨passes_quoteWords words, splitWords_quoteWords words⟩

/-- A blank in front of a row is no part of its words. -/
theorem row_blank_quoteWords (words : List Bytes) : Row (space :: quoteWords words) words where
  passes := .cons rfl (passes_quoteWords words)
  read := by
    rw [← splitWords_quoteWords words, splitWords, splitWords]
    cases quoteWords words <;> simp [readWords, space, isBlank]

/-- Nor is a blank behind it. -/
theorem row_quoteWords_blank (words : List Bytes) : Row (quoteWords words ++ [space]) words where
  passes := (passes_quoteWords words).append (.byte rfl)
  read := by
    unfold splitWords
    induction words with
    | nil => rfl
    | cons first more ih =>
        cases more with
        | nil =>
            rw [quoteWords_singleton, readWords_quoteWord]
            rfl
        | cons second more =>
            rw [quoteWords_cons_cons, List.append_assoc, readWords_quoteWord, List.cons_append,
              readWords_blank_inWord (by decide), ih]
            rfl

/-- **A row is read up to the operator behind it, and what follows the operator is read on
its own.** -/
theorem Row.lexemes {text : Bytes} {words : List Bytes} (row : Row text words) {sign : UInt8}
    (isSign : isOperator sign = true) {rest : Bytes} {more : List Lexeme}
    (reads : lexemes rest = .ok more) :
    lexemes (text ++ sign :: rest) = .ok (words.map .word ++ .operator sign :: more) := by
  have cut : stretches .outside (text ++ sign :: rest) =
      (text, (sign, (stretches .outside rest).1) :: (stretches .outside rest).2) := by
    rw [row.passes, stretches, next_operator isSign]
    simp [Quoting.exposes, isSign]
  unfold Shell.lexemes at reads ⊢
  rw [cut]
  simp only [lexemesOf, row.read, reads]
  rfl

end Assay.Shell

namespace Assay.Bytes

/-! ## Numbers -/

theorem ofNat_digits (n : Nat) : ∀ b ∈ ofNat n, isDigit b = true := by
  have digits : ∀ code < 58, 48 ≤ code → isDigit code.toUInt8 = true := by decide
  intro b member
  obtain ⟨c, isIn, rfl⟩ := List.mem_map.1 member
  have digit := Nat.isDigit_of_mem_toDigits (by decide) (by decide) isIn
  simp only [Char.isDigit, Bool.and_eq_true, decide_eq_true_eq, ge_iff_le, UInt32.le_iff_toNat_le]
    at digit
  exact digits c.toNat (Nat.lt_succ_of_le digit.2) digit.1

theorem ofNat_ne_nil (n : Nat) : ofNat n ≠ [] := by
  simp [ofNat]

end Assay.Bytes

namespace Assay.Container

open Bytes Shell

/-! ## Numbers as words -/

/-- A number is a word that needs no quotation. -/
theorem quoteWord_ofInt (n : Int) : quoteWord (ofInt n) = ofInt n := by
  have digitsBare : ∀ n, (ofNat n).all isBare = true := by
    intro n
    refine List.all_eq_true.2 fun b member => ?_
    simp [isBare, isAlphanumeric, ofNat_digits n b member]
  cases n with
  | ofNat n => simp [quoteWord, ofInt, ofNat_ne_nil, digitsBare]
  | negSucc n =>
      have bare : (ofInt (.negSucc n)).all isBare = true := by
        simp only [ofInt, List.all_cons, digitsBare, Bool.and_true]
        decide
      rw [quoteWord, if_neg (by simp [ofInt]), if_pos bare]

namespace Config

/-- The words that stop the container, but no longer than it may take. -/
def stopWords (config : Config) : List Bytes :=
  [ascii "timeout", ofInt config.stopTimeout] ++ config.runtimeWords ++
    [ascii "stop", config.identifier]

/-- The words that remove it. -/
def removeWords (config : Config) : List Bytes :=
  config.runtimeWords ++ [ascii "rm", ascii "-f", config.identifier]

theorem quoteWords_stopWords (config : Config) :
    quoteWords config.stopWords =
      ascii "timeout " ++ ofInt config.stopTimeout ++ [space] ++ quoteWords config.runtimeWords ++
        ascii " stop " ++ quoteWord config.identifier := by
  have runtime : config.runtimeWords ≠ [] := List.cons_ne_nil _ _
  unfold stopWords
  rw [quoteWords_append (by simp) (by simp), quoteWords_append (by simp) runtime,
    quoteWords_cons_cons, quoteWords_cons_cons, quoteWords_singleton, quoteWords_singleton,
    quoteWord_ofInt, show quoteWord (ascii "timeout") = ascii "timeout" by decide,
    show quoteWord (ascii "stop") = ascii "stop" by decide]
  simp [ascii, space]

theorem quoteWords_removeWords (config : Config) :
    quoteWords config.removeWords =
      quoteWords config.runtimeWords ++ ascii " rm -f " ++ quoteWord config.identifier := by
  have runtime : config.runtimeWords ≠ [] := List.cons_ne_nil _ _
  unfold removeWords
  rw [quoteWords_append runtime (by simp), quoteWords_cons_cons, quoteWords_cons_cons,
    quoteWords_singleton, show quoteWord (ascii "rm") = ascii "rm" by decide,
    show quoteWord (ascii "-f") = ascii "-f" by decide]
  simp [ascii, space]

/-- **The line that releases a container holds the operators of its own and no others,
and between them stand the words that stop the container or else remove it**, whatever
bytes the configuration names. -/
theorem lexemes_releaseLine (config : Config) :
    lexemes config.releaseLine = .ok (
      Lexeme.signs (ascii "(") ++
      ([ascii "timeout", ofInt config.stopTimeout] ++ config.runtimeWords ++
        [ascii "stop", config.identifier]).map .word ++
      Lexeme.signs (ascii "||") ++
      (config.runtimeWords ++ [ascii "rm", ascii "-f", config.identifier]).map .word ++
      Lexeme.signs (ascii ")>") ++ [ascii "/dev/null", ascii "2"].map .word ++
      Lexeme.signs (ascii ">&") ++ [ascii "1"].map .word ++ Lexeme.signs (ascii "&")) := by
  -- every stretch of the line is a row of quoted words, some with a blank at one end
  have seams : config.releaseLine =
      quoteWords [] ++ 40 :: ((quoteWords config.stopWords ++ [space]) ++ 124 ::
        (quoteWords [] ++ 124 :: ((space :: quoteWords config.removeWords) ++ 41 ::
          ((quoteWords [] ++ [space]) ++ 62 ::
            (quoteWords [ascii "/dev/null", ascii "2"] ++ 62 :: (quoteWords [] ++ 38 ::
              ((quoteWords [ascii "1"] ++ [space]) ++ 38 :: []))))))) := by
    have target : quoteWords [ascii "/dev/null", ascii "2"] = ascii "/dev/null 2" := by decide
    have descriptor : quoteWords [ascii "1"] = ascii "1" := by decide
    rw [quoteWords_stopWords, quoteWords_removeWords, releaseLine, target, descriptor]
    simp [quoteWords, join, ascii, space]
  have nothing := row_quoteWords []
  have stops := row_quoteWords_blank config.stopWords
  have removes := row_blank_quoteWords config.removeWords
  have blank := row_quoteWords_blank []
  have target := row_quoteWords [ascii "/dev/null", ascii "2"]
  have descriptor := row_quoteWords_blank [ascii "1"]
  have ending : lexemes [] = .ok [] := rfl
  rw [seams, nothing.lexemes rfl <| stops.lexemes rfl <| nothing.lexemes rfl <|
    removes.lexemes rfl <| blank.lexemes rfl <| target.lexemes rfl <| nothing.lexemes rfl <|
    descriptor.lexemes rfl ending]
  simp [stopWords, removeWords, Lexeme.signs, ascii]

/-- An identifier that a shell would run is a word of the line. -/
example : (lexemes (releaseLine { identifier := ascii "x'; $(id) #" })).toOption =
    some (Lexeme.signs (ascii "(") ++
      [ascii "timeout", ascii "60", ascii "nerdctl", ascii "stop", ascii "x'; $(id) #"].map .word ++
      Lexeme.signs (ascii "||") ++
      [ascii "nerdctl", ascii "rm", ascii "-f", ascii "x'; $(id) #"].map .word ++
      Lexeme.signs (ascii ")>") ++ [ascii "/dev/null", ascii "2"].map .word ++
      Lexeme.signs (ascii ">&") ++ [ascii "1"].map .word ++ Lexeme.signs (ascii "&")) := by
  decide +kernel

end Config

end Assay.Container
