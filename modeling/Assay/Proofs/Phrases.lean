/-
# Assay.Proofs.Phrases -- lines that are put together without quoting

A line made of words and operators with a space between neighbours (`line`) is read as
those words and operators exactly where each word can be written as it is
(`Rules.read?_line_iff`): it is not empty, it does not begin a comment, and none of its bytes
is a blank, an operator, a quote or a backslash.

That such words suffice is an induction over the line.  That they are needed is so
because nothing makes up for a byte that is lost.  Reading drops each comment with its sign,
each quote and each backslash that covers nothing else, and makes none of them, so a line that
holds them and is read as it was meant would have fewer of them than its words; and from bytes
that no quotation covers come only words without blanks and operators in them.
-/
import Assay.Proofs.Quotation
import Mathlib.Algebra.Order.Group.Nat

namespace Assay.Shell

set_option autoImplicit false

open Bytes

/-! ## Lines -/

/-- A word or an operator of a line, as it is meant. -/
inductive Token where
  | word (text : Bytes)
  | operator (text : Bytes)
  deriving DecidableEq, Repr

def Token.text : Token → Bytes
  | word text => text
  | operator text => text

/-- What the token is to be read as. -/
def Token.lexemes : Token → List Lexeme
  | word text => [.word text]
  | operator text => Lexeme.signs text

/-- The tokens as they are written, a space between neighbours. -/
def line (tokens : List Token) : Bytes :=
  join (tokens.map Token.text) [space]

theorem line_cons_cons (first second : Token) (more : List Token) :
    line (first :: second :: more) = first.text ++ space :: line (second :: more) := by
  simp [line, join, List.intercalate]

theorem line_singleton (token : Token) : line [token] = token.text := by
  simp [line, join]

/-- The bytes of a line are those of its tokens, and spaces. -/
theorem mem_line {tokens : List Token} {b : UInt8} (member : b ∈ line tokens) :
    b = space ∨ ∃ token ∈ tokens, b ∈ token.text := by
  induction tokens with
  | nil => cases member
  | cons first rest ih =>
      cases rest with
      | nil =>
          rw [line_singleton] at member
          exact Or.inr ⟨first, List.mem_cons_self, member⟩
      | cons second more =>
          rw [line_cons_cons, List.mem_append, List.mem_cons] at member
          rcases member with here | gap | later
          · exact Or.inr ⟨first, List.mem_cons_self, here⟩
          · exact Or.inl gap
          · rcases ih later with gap | ⟨token, isIn, holds⟩
            · exact Or.inl gap
            · exact Or.inr ⟨token, List.mem_cons_of_mem first isIn, holds⟩

theorem mem_line_of_mem {tokens : List Token} {token : Token} {b : UInt8}
    (member : token ∈ tokens) (holds : b ∈ token.text) : b ∈ line tokens := by
  induction tokens with
  | nil => cases member
  | cons first rest ih =>
      cases rest with
      | nil =>
          obtain rfl := List.mem_singleton.1 member
          rwa [line_singleton]
      | cons second more =>
          rw [line_cons_cons, List.mem_append, List.mem_cons]
          rcases List.mem_cons.1 member with rfl | later
          · exact Or.inl holds
          · exact Or.inr (Or.inr (ih later))

namespace Rules

/-- The byte makes up a word where nothing covers it. -/
def IsPart (rules : Rules) (b : UInt8) : Prop :=
  rules.blank b = false ∧ rules.operator b = false

/-- Where a word begins, what is written so begins a comment. -/
def BeginsComment (rules : Rules) (text : Bytes) : Prop :=
  rules.comments = true ∧ text.head? = some hash

/-- The word can be written as it is. -/
def Literal (rules : Rules) (word : Bytes) : Prop :=
  word ≠ [] ∧ ¬ rules.BeginsComment word ∧ ∀ b ∈ word, rules.IsPart b ∧ isQuoting b = false

instance (rules : Rules) (b : UInt8) : Decidable (rules.IsPart b) :=
  inferInstanceAs (Decidable (_ ∧ _))

instance (rules : Rules) (text : Bytes) : Decidable (rules.BeginsComment text) :=
  inferInstanceAs (Decidable (_ ∧ _))

instance (rules : Rules) (word : Bytes) : Decidable (rules.Literal word) :=
  inferInstanceAs (Decidable (_ ∧ _ ∧ _))

/-- The byte is an operator where nothing covers it. -/
def IsSign (rules : Rules) (b : UInt8) : Prop :=
  rules.blank b = false ∧ rules.operator b = true ∧ isQuoting b = false ∧ b ≠ hash

instance (rules : Rules) (b : UInt8) : Decidable (rules.IsSign b) :=
  inferInstanceAs (Decidable (_ ∧ _ ∧ _ ∧ _))

/-! ## Bytes that nothing covers -/

section

variable {rules : Rules}

theorem gather_parts {text : Bytes} (parts : ∀ b ∈ text, rules.IsPart b) (word : Bytes)
    (rest : List Sign) :
    rules.gather (some word) (text.map .bare ++ rest) =
      rules.gather (some (word ++ text)) rest := by
  induction text generalizing word with
  | nil => simp
  | cons b more ih =>
      obtain ⟨notBlank, notOperator⟩ := parts b List.mem_cons_self
      rw [List.map_cons, List.cons_append, gather]
      simp only [meaning, notBlank, notOperator, Bool.false_eq_true, if_false, Option.getD_some]
      rw [ih fun c member => parts c (List.mem_cons_of_mem b member)]
      simp

/-- A word begins with its first byte. -/
theorem gather_literal {text : Bytes} (literal : rules.Literal text) (rest : List Sign) :
    rules.gather none (text.map .bare ++ rest) = rules.gather (some text) rest := by
  obtain ⟨nonempty, -, parts⟩ := literal
  cases text with
  | nil => exact absurd rfl nonempty
  | cons b more =>
      obtain ⟨⟨notBlank, notOperator⟩, -⟩ := parts b List.mem_cons_self
      rw [List.map_cons, List.cons_append, gather]
      simp only [meaning, notBlank, notOperator, Bool.false_eq_true, if_false, Option.getD_none]
      exact gather_parts (fun c member => (parts c (List.mem_cons_of_mem b member)).1) [b] rest

theorem gather_signs {text : Bytes} (signs : ∀ b ∈ text, rules.IsSign b) (rest : List Sign) :
    rules.gather none (text.map .bare ++ rest) = Lexeme.signs text ++ rules.gather none rest := by
  induction text with
  | nil => rfl
  | cons b more ih =>
      obtain ⟨notBlank, operator, -⟩ := signs b List.mem_cons_self
      rw [List.map_cons, List.cons_append, gather]
      simp only [meaning, notBlank, operator, Bool.false_eq_true, if_false, if_true]
      rw [ih fun c member => signs c (List.mem_cons_of_mem b member)]
      rfl

theorem gather_space (blank : rules.blank space = true) (word : Option Bytes)
    (rest : List Sign) :
    rules.gather word (.bare space :: rest) = word.toList.map .word ++ rules.gather none rest := by
  rw [gather]
  simp only [meaning, blank, if_true]

/-- The words that come of bytes that nothing covers have no blanks and operators in them. -/
theorem parts_of_gather_bare {text : Bytes} {word : Option Bytes}
    (begun : ∀ found ∈ word, found ≠ [] ∧ ∀ b ∈ found, rules.IsPart b) :
    ∀ found, .word found ∈ rules.gather word (text.map .bare) →
      found ≠ [] ∧ ∀ b ∈ found, rules.IsPart b := by
  induction text generalizing word with
  | nil =>
      intro found member
      cases word with
      | none => cases member
      | some other =>
          obtain rfl : found = other := by simpa [gather] using member
          exact begun found rfl
  | cons b more ih =>
      intro found member
      rw [List.map_cons, gather] at member
      -- the byte ends a word, or is an operator, or goes into the word
      cases blank : rules.blank b with
      | true =>
          simp only [meaning, blank, if_true, List.mem_append, List.mem_map, Option.mem_toList]
            at member
          rcases member with ⟨other, isWord, same⟩ | later
          · cases same
            exact begun found isWord
          · exact ih (by simp) found later
      | false =>
          cases operator : rules.operator b with
          | true =>
              simp only [meaning, blank, operator, Bool.false_eq_true, if_false, if_true,
                List.mem_append, List.mem_cons, List.mem_map, Option.mem_toList] at member
              rcases member with ⟨other, isWord, same⟩ | same | later
              · cases same
                exact begun found isWord
              · cases same
              · exact ih (by simp) found later
          | false =>
              simp only [meaning, blank, operator, Bool.false_eq_true, if_false] at member
              refine ih ?_ found member
              rintro grown ⟨⟩
              refine ⟨by simp, ?_⟩
              intro c isIn
              rcases List.mem_append.1 isIn with earlier | last
              · cases word with
                | none => cases earlier
                | some other => exact (begun other rfl).2 c earlier
              · obtain rfl := List.mem_singleton.1 last
                exact ⟨blank, operator⟩

end

end Rules

/-! ## Comments -/

namespace Rules

variable {rules : Rules}

/-- A line is without comments, or loses the hash sign of one. -/
theorem uncommented_eq_or_lt {stand : Stand} (notInComment : stand ≠ .inComment) (text : Bytes) :
    rules.uncommented stand text = text ∨
      (rules.uncommented stand text).countP (· == hash) < text.countP (· == hash) := by
  induction text generalizing stand with
  | nil => exact .inl rfl
  | cons b rest ih =>
      cases kept : rules.isComment stand b with
      | false =>
          rw [uncommented_cons kept]
          rcases ih (behind_ne_inComment notInComment kept) with same | fewer
          · exact .inl (congrArg _ same)
          · refine .inr ?_
            rw [List.countP_cons, List.countP_cons]
            exact Nat.add_lt_add_right fewer _
      | true =>
          cases stand with
          | inComment => exact absurd rfl notInComment
          | betweenWords =>
              have isHash : (b == hash) = true := (Bool.and_eq_true_iff.1 kept).2
              refine .inr ?_
              rw [uncommented, kept, if_pos rfl, List.countP_cons, isHash, if_pos rfl]
              exact Nat.lt_succ_of_le (rules.uncommented_sublist _ rest).countP_le
          | inWord | escaped | inSingle | inDouble | escapedInDouble => cases kept

theorem uncommented_ne_of_beginsComment {text : Bytes} (begins : rules.BeginsComment text) :
    rules.uncommented .betweenWords text ≠ text := by
  obtain ⟨comments, head⟩ := begins
  obtain ⟨rest, rfl⟩ := List.head?_eq_some_iff.1 head
  intro same
  have isComment : rules.isComment .betweenWords hash = true := by simp [Rules.isComment, comments]
  rw [uncommented, isComment, if_pos rfl] at same
  have shorter := (rules.uncommented_sublist (rules.behind .betweenWords hash) rest).length_le
  rw [same] at shorter
  exact absurd shorter (Nat.not_succ_le_self _)

/-- A byte that makes up a word leads into it. -/
theorem behindBare_of_isPart {b : UInt8} (part : rules.IsPart b) (plain : isQuoting b = false)
    (inWord : Bool) : rules.behindBare inWord b = .inWord := by
  obtain ⟨notBlank, notOperator⟩ := part
  obtain ⟨notSingle, notDouble, notBackslash⟩ := isQuoting_eq_false_iff.1 plain
  simp [behindBare, notSingle, notDouble, notBackslash, notBlank, notOperator]

/-- What goes on with a word holds no comment. -/
theorem uncommented_parts {text : Bytes}
    (parts : ∀ b ∈ text, rules.IsPart b ∧ isQuoting b = false) (rest : Bytes) :
    rules.uncommented .inWord (text ++ rest) = text ++ rules.uncommented .inWord rest := by
  induction text with
  | nil => rfl
  | cons b more ih =>
      obtain ⟨part, plain⟩ := parts b List.mem_cons_self
      rw [List.cons_append, uncommented_cons rfl, behind, behindBare_of_isPart part plain,
        ih fun c member => parts c (List.mem_cons_of_mem b member)]
      rfl

theorem uncommented_literal {text : Bytes} (literal : rules.Literal text) (rest : Bytes) :
    rules.uncommented .betweenWords (text ++ rest) = text ++ rules.uncommented .inWord rest := by
  obtain ⟨nonempty, noComment, parts⟩ := literal
  cases text with
  | nil => exact absurd rfl nonempty
  | cons b more =>
      obtain ⟨part, plain⟩ := parts b List.mem_cons_self
      have kept : rules.isComment .betweenWords b = false := by
        simpa [BeginsComment, isComment] using noComment
      have moves : rules.behind .betweenWords b = .inWord := by
        rw [isComment] at kept
        rw [behind, kept, if_neg Bool.false_ne_true, behindBare_of_isPart part plain]
      rw [List.cons_append, uncommented_cons kept, moves,
        uncommented_parts fun c member => parts c (List.mem_cons_of_mem b member)]
      rfl

theorem uncommented_signs {text : Bytes} (signs : ∀ b ∈ text, rules.IsSign b) {stand : Stand}
    (stands : Cover.nothing.Stands stand) (rest : Bytes) :
    ∃ after, Cover.nothing.Stands after ∧
      rules.uncommented stand (text ++ rest) = text ++ rules.uncommented after rest := by
  induction text generalizing stand with
  | nil => exact ⟨stand, stands, rfl⟩
  | cons b more ih =>
      obtain ⟨-, -, plain, notHash⟩ := signs b List.mem_cons_self
      obtain ⟨kept, inWord, moves⟩ := rules.behind_of_stands stands notHash
      obtain ⟨after, ends, same⟩ := ih (fun c member => signs c (List.mem_cons_of_mem b member))
        (rules.stands_behindBare inWord plain)
      refine ⟨after, ends, ?_⟩
      rw [List.cons_append, uncommented_cons kept, moves, same]
      rfl

theorem uncommented_space (blank : rules.blank space = true) {stand : Stand}
    (stands : Cover.nothing.Stands stand) (rest : Bytes) :
    rules.uncommented stand (space :: rest) =
      space :: rules.uncommented .betweenWords rest := by
  have notHash : space ≠ hash := by decide
  obtain ⟨kept, inWord, moves⟩ := rules.behind_of_stands stands notHash
  have ends : rules.behindBare inWord space = .betweenWords := by
    have notQuoting : space ≠ backslash ∧ space ≠ singleQuote ∧ space ≠ doubleQuote := by decide
    simp [behindBare, blank, notQuoting]
  rw [uncommented_cons kept, moves, ends]

/-- Behind a token that begins no comment, nothing is covered. -/
theorem uncommented_token {token : Token}
    (signs : ∀ text, token = .operator text → ∀ b ∈ text, rules.IsSign b)
    (literal : ∀ text, token = .word text → rules.Literal text) (rest : Bytes) :
    ∃ after, Cover.nothing.Stands after ∧
      rules.uncommented .betweenWords (token.text ++ rest) =
        token.text ++ rules.uncommented after rest := by
  cases token with
  | word text => exact ⟨.inWord, .inr rfl, uncommented_literal (literal text rfl) rest⟩
  | operator text => exact uncommented_signs (signs text rfl) (.inl rfl) rest

theorem BeginsComment.line {text : Bytes} (begins : rules.BeginsComment text)
    (rest : List Token) : rules.BeginsComment (line (.word text :: rest)) := by
  refine ⟨begins.1, ?_⟩
  cases rest with
  | nil =>
      rw [line_singleton]
      exact begins.2
  | cons second more =>
      rw [line_cons_cons, List.head?_append]
      exact (congrArg (Option.or · _) begins.2).trans rfl

/-- A line has comments where one of its words begins a comment. -/
theorem uncommented_line_iff {tokens : List Token} (blank : rules.blank space = true)
    (signs : ∀ text, .operator text ∈ tokens → ∀ b ∈ text, rules.IsSign b)
    (parts : ∀ text, .word text ∈ tokens →
      text ≠ [] ∧ ∀ b ∈ text, rules.IsPart b ∧ isQuoting b = false) :
    rules.uncommented .betweenWords (line tokens) = line tokens ↔
      ∀ text, .word text ∈ tokens → ¬ rules.BeginsComment text := by
  induction tokens with
  | nil => simp [line, join, uncommented]
  | cons token rest ih =>
      have later := ih (fun text member => signs text (List.mem_cons_of_mem token member))
        (fun text member => parts text (List.mem_cons_of_mem token member))
      by_cases begins : ∃ text, token = .word text ∧ rules.BeginsComment text
      · obtain ⟨text, rfl, begins⟩ := begins
        exact iff_of_false (uncommented_ne_of_beginsComment (begins.line rest))
          fun none => none text List.mem_cons_self begins
      · have heads : (∀ text, .word text ∈ token :: rest → ¬ rules.BeginsComment text) ↔
            ∀ text, .word text ∈ rest → ¬ rules.BeginsComment text := by
          refine ⟨fun none text member => none text (List.mem_cons_of_mem token member), ?_⟩
          intro none text member holds
          rcases List.mem_cons.1 member with same | behind
          · exact begins ⟨text, same.symm, holds⟩
          · exact none text behind holds
        have first := uncommented_token
          (fun text same => signs text (same ▸ List.mem_cons_self))
          (fun text same => by
            obtain ⟨nonempty, consists⟩ := parts text (same ▸ List.mem_cons_self)
            exact ⟨nonempty, fun holds => begins ⟨text, same, holds⟩, consists⟩)
        refine Iff.trans ?_ (later.trans heads.symm)
        cases rest with
        | nil =>
            obtain ⟨after, -, same⟩ := first []
            rw [List.append_nil] at same
            rw [line_singleton, same]
            simp [line, join, uncommented]
        | cons second more =>
            obtain ⟨after, ends, same⟩ := first (space :: line (second :: more))
            rw [line_cons_cons, same, uncommented_space blank ends, List.append_cancel_left_eq,
              List.cons_inj_right]

end Rules

/-! ## Lines with quotes and backslashes in them -/

/-- Without quotes and backslashes every byte is bare. -/
theorem signs?_eq_bare {text : Bytes} (plain : ∀ b ∈ text, isQuoting b = false) :
    signs? .nothing text = some (text.map .bare) := by
  induction text with
  | nil => rfl
  | cons b more ih =>
      rw [signs?_bare (plain b List.mem_cons_self),
        ih fun c member => plain c (List.mem_cons_of_mem b member)]
      rfl

/-- A quotation or an escape: the sign has a byte that is no part of a word. -/
inductive Covers : Sign → Prop
  | quote {b : UInt8} (quoting : isQuoting b = true) : Covers (.quote b)
  | escape (b : UInt8) : Covers (.escape b)

/-- The first quote or backslash of a line covers something. -/
theorem exists_covers {text : Bytes} {signs : List Sign}
    (found : signs? .nothing text = some signs) {b : UInt8} (member : b ∈ text)
    (quoting : isQuoting b = true) : ∃ sign ∈ signs, Covers sign := by
  induction text generalizing signs with
  | nil => cases member
  | cons first more ih =>
      cases plain : isQuoting first with
      | false =>
          rw [signs?_bare plain] at found
          obtain ⟨later, read, rfl⟩ := Option.map_eq_some_iff.1 found
          rcases List.mem_cons.1 member with rfl | behind
          · rw [plain] at quoting
            cases quoting
          · obtain ⟨sign, isIn, covers⟩ := ih read behind
            exact ⟨sign, List.mem_cons_of_mem _ isIn, covers⟩
      | true =>
          have cases' : first = singleQuote ∨ first = doubleQuote ∨ first = backslash := by
            simpa [isQuoting, or_assoc] using plain
          rcases cases' with rfl | rfl | rfl
          · rw [signs?_openSingle] at found
            obtain ⟨later, -, rfl⟩ := Option.map_eq_some_iff.1 found
            exact ⟨_, List.mem_cons_self, .quote rfl⟩
          · rw [signs?_openDouble] at found
            obtain ⟨later, -, rfl⟩ := Option.map_eq_some_iff.1 found
            exact ⟨_, List.mem_cons_self, .quote rfl⟩
          · cases more with
            | nil => cases found
            | cons c rest =>
                rw [signs?_escape] at found
                obtain ⟨later, -, rfl⟩ := Option.map_eq_some_iff.1 found
                exact ⟨_, List.mem_cons_self, .escape c⟩

namespace Rules

variable (rules : Rules)

/-- What a sign means is in what it is written with. -/
theorem meaning_sublist (sign : Sign) :
    (rules.meaning sign).bytes.Sublist sign.spelling := by
  cases sign with
  | bare b | escape b | double b | doubleEscape b =>
      simp only [meaning, Sign.spelling]
      split_ifs <;> simp [Meaning.bytes]
  | quote b => exact List.nil_sublist _
  | single b => exact List.Sublist.refl _

/-- Reading adds no byte. -/
theorem countP_textOf_le (p : UInt8 → Bool) {text : Bytes} {signs : List Sign}
    (found : signs? .nothing text = some signs) :
    (textOf (rules.gather none signs)).countP p ≤ text.countP p := by
  rw [textOf_gather, Option.getD_none, List.nil_append, ← spelling_of_signs? found,
    List.countP_flatMap, List.countP_flatMap]
  exact List.sum_le_sum fun sign _ => (rules.meaning_sublist sign).countP_le

theorem countP_meaning_lt {sign : Sign} (covers : Covers sign) :
    (rules.meaning sign).bytes.countP isQuoting < sign.spelling.countP isQuoting := by
  have backslashQuotes : isQuoting backslash = true := rfl
  cases covers with
  | quote quoting => simp [meaning, Meaning.bytes, Sign.spelling, quoting]
  | escape b =>
      simp only [meaning, Sign.spelling]
      split_ifs <;> simp [Meaning.bytes, List.countP_cons, backslashQuotes]

/-- What is read from a line with a quote or a backslash in it has fewer of them. -/
theorem countP_textOf_lt {text : Bytes} {signs : List Sign}
    (found : signs? .nothing text = some signs) {b : UInt8} (member : b ∈ text)
    (quoting : isQuoting b = true) :
    (textOf (rules.gather none signs)).countP isQuoting < text.countP isQuoting := by
  rw [textOf_gather, Option.getD_none, List.nil_append, ← spelling_of_signs? found,
    List.countP_flatMap, List.countP_flatMap]
  refine List.sum_lt_sum _ _ (fun sign _ => (rules.meaning_sublist sign).countP_le) ?_
  obtain ⟨sign, isIn, covers⟩ := exists_covers found member quoting
  exact ⟨sign, isIn, rules.countP_meaning_lt covers⟩

end Rules

/-- A line has as many bytes as its words of every kind of which the space and the operators
are none. -/
theorem countP_line {p : UInt8 → Bool} {tokens : List Token} (gap : p space = false)
    (signs : ∀ text, .operator text ∈ tokens → ∀ b ∈ text, p b = false) :
    (line tokens).countP p = (textOf (tokens.flatMap Token.lexemes)).countP p := by
  have single : ∀ token ∈ tokens,
      token.text.countP p = (textOf token.lexemes).countP p := by
    intro token member
    cases token with
    | word text => simp [Token.text, Token.lexemes, textOf]
    | operator text =>
        have none : (textOf (Lexeme.signs text)) = [] := by
          simp [textOf, Lexeme.signs]
        rw [Token.lexemes, none, Token.text,
          List.countP_eq_zero.2 (by simpa using signs text member)]
        rfl
  induction tokens with
  | nil => rfl
  | cons token rest ih =>
      have later := ih (fun text member => signs text (List.mem_cons_of_mem token member))
        (fun other member => single other (List.mem_cons_of_mem token member))
      have joined : textOf ((token :: rest).flatMap Token.lexemes) =
          textOf token.lexemes ++ textOf (rest.flatMap Token.lexemes) := by
        simp [textOf]
      rw [joined, List.countP_append, ← single token List.mem_cons_self, ← later]
      cases rest with
      | nil =>
          rw [line_singleton]
          rfl
      | cons second more =>
          rw [line_cons_cons, List.countP_append, List.countP_cons_of_neg (by simp [gap])]

namespace Rules

variable {rules : Rules} {tokens : List Token}

/-- Words that can be written as they are are read as they were meant. -/
theorem gather_line (blank : rules.blank space = true)
    (signs : ∀ text, .operator text ∈ tokens → ∀ b ∈ text, rules.IsSign b)
    (literal : ∀ text, .word text ∈ tokens → rules.Literal text) :
    rules.gather none ((line tokens).map .bare) = tokens.flatMap Token.lexemes := by
  -- a token in front of an end or of a space
  have first : ∀ token ∈ tokens, ∀ rest : List Sign,
      (rest = [] ∨ ∃ more, rest = .bare space :: more) →
        rules.gather none (token.text.map .bare ++ rest) =
          token.lexemes ++ rules.gather none rest := by
    intro token member rest ends
    cases token with
    | word text =>
        rw [Token.text, gather_literal (literal text member)]
        rcases ends with rfl | ⟨more, rfl⟩
        · rfl
        · rw [gather_space blank, gather_space blank]
          rfl
    | operator text => exact gather_signs (signs text member) rest
  induction tokens with
  | nil => rfl
  | cons token rest ih =>
      have later := ih (fun text member => signs text (List.mem_cons_of_mem token member))
        (fun text member => literal text (List.mem_cons_of_mem token member))
        (fun other member => first other (List.mem_cons_of_mem token member))
      cases rest with
      | nil =>
          have alone := first token List.mem_cons_self [] (Or.inl rfl)
          rw [List.append_nil] at alone
          rw [line_singleton, alone]
          simp [gather]
      | cons second more =>
          rw [line_cons_cons, List.map_append, List.map_cons,
            first token List.mem_cons_self _ (Or.inr ⟨_, rfl⟩), gather_space blank, later]
          rfl

/-- A line that is read as it was meant has no comments: each would take a hash sign away that
the words have. -/
theorem uncommented_of_read? (signs : ∀ text, .operator text ∈ tokens → ∀ b ∈ text, b ≠ hash)
    (read : rules.read? (line tokens) = some (tokens.flatMap Token.lexemes)) :
    rules.uncommented .betweenWords (line tokens) = line tokens := by
  obtain ⟨found, signsFound, gathered⟩ := Option.map_eq_some_iff.1 read
  have fresh : Stand.betweenWords ≠ .inComment := by decide
  rcases uncommented_eq_or_lt fresh (line tokens) with same | fewer
  · exact same
  · have kept := rules.countP_textOf_le (· == hash) signsFound
    have meant := countP_line (p := (· == hash)) rfl
      fun text member b isIn => beq_eq_false_iff_ne.2 (signs text member b isIn)
    rw [gathered, ← meant] at kept
    exact absurd fewer (not_lt.2 kept)

/-- Nor has it quotes or backslashes, all of which are taken away. -/
theorem plain_of_signs? {found : List Sign}
    (unquoted : ∀ text, .operator text ∈ tokens → ∀ b ∈ text, isQuoting b = false)
    (signsFound : signs? .nothing (line tokens) = some found)
    (gathered : rules.gather none found = tokens.flatMap Token.lexemes) :
    ∀ b ∈ line tokens, isQuoting b = false := by
  intro b isIn
  by_contra quoting
  rw [Bool.not_eq_false] at quoting
  have fewer := rules.countP_textOf_lt signsFound isIn quoting
  rw [gathered, countP_line rfl unquoted] at fewer
  exact lt_irrefl _ fewer

/-- **A line is read as it was meant exactly where its words can be written as they are.** -/
theorem read?_line_iff (blank : rules.blank space = true)
    (signs : ∀ text, .operator text ∈ tokens → ∀ b ∈ text, rules.IsSign b) :
    rules.read? (line tokens) = some (tokens.flatMap Token.lexemes) ↔
      ∀ text, .word text ∈ tokens → rules.Literal text := by
  have unquoted : ∀ text, .operator text ∈ tokens → ∀ b ∈ text, isQuoting b = false :=
    fun text member b isIn => (signs text member b isIn).2.2.1
  constructor
  · intro read
    have whole := uncommented_of_read?
      (fun text member b isIn => (signs text member b isIn).2.2.2) read
    obtain ⟨found, signsFound, gathered⟩ := Option.map_eq_some_iff.1 read
    rw [whole] at signsFound
    have plain := plain_of_signs? unquoted signsFound gathered
    obtain rfl : (line tokens).map .bare = found :=
      Option.some_inj.1 ((signs?_eq_bare plain).symm.trans signsFound)
    have parts : ∀ text, .word text ∈ tokens →
        text ≠ [] ∧ ∀ b ∈ text, rules.IsPart b ∧ isQuoting b = false := by
      intro text member
      have isRead : Lexeme.word text ∈ tokens.flatMap Token.lexemes :=
        List.mem_flatMap.2 ⟨.word text, member, List.mem_singleton_self _⟩
      obtain ⟨nonempty, parts⟩ := parts_of_gather_bare (by simp) text (gathered ▸ isRead)
      exact ⟨nonempty, fun b isIn => ⟨parts b isIn, plain b (mem_line_of_mem member isIn)⟩⟩
    have heads := (uncommented_line_iff blank signs parts).1 whole
    exact fun text member => ⟨(parts text member).1, heads text member, (parts text member).2⟩
  · intro literal
    have plain : ∀ b ∈ line tokens, isQuoting b = false := by
      intro b isIn
      rcases mem_line isIn with rfl | ⟨token, member, holds⟩
      · rfl
      · cases token with
        | word text => exact ((literal text member).2.2 b holds).2
        | operator text => exact unquoted text member b holds
    have whole := (uncommented_line_iff blank signs fun text member =>
      ⟨(literal text member).1, (literal text member).2.2⟩).2
        fun text member => (literal text member).2.1
    rw [read?, whole, signs?_eq_bare plain, Option.map_some, gather_line blank signs literal]

end Rules

/-- Words with spaces between them are split as they were where each can be written as it
is, and nowhere else. -/
theorem splitWords_line_iff {words : List Bytes} :
    splitWords (line (words.map .word)) = .ok words ↔
      ∀ word ∈ words, Rules.direct.Literal word := by
  have meant : (words.map Token.word).flatMap Token.lexemes = words.map .word := by
    rw [List.flatMap_map, List.map_eq_flatMap]
    rfl
  rw [splitWords_eq_ok_iff, ← meant, Rules.read?_line_iff rfl (by simp)]
  simp

end Assay.Shell
