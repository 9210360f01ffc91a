/-
# Assay.Proofs.Rounds -- loops that search on from a place

A search can be taken up again from a place in a text (`indexFrom?`).  A loop of such
searches is said by what one round of it does: it answers, or it goes on from another state.
`ComesTo` is then the answer of a loop that ends, for only a loop that ends has one, and
`Meets` are the states that it goes through.
-/
import Assay.Proofs.Search

namespace Assay

set_option autoImplicit false

section

variable {State Answer : Type} (round : State → Answer ⊕ State)

/-- The loop that makes these rounds ends, and this is its answer. -/
inductive ComesTo : State → Answer → Prop
  | ends {now : State} {answer : Answer} (answers : round now = .inl answer) : ComesTo now answer
  | goesOn {now next : State} {answer : Answer} (follows : round now = .inr next)
      (later : ComesTo next answer) : ComesTo now answer

/-- Where one round does the same as where another begins, the loop comes to the same. -/
theorem ComesTo.of_round_eq {round : State → Answer ⊕ State} {now other : State} {answer : Answer}
    (same : round now = round other) (comes : ComesTo round other answer) :
    ComesTo round now answer := by
  cases comes with
  | ends answers => exact .ends (same.trans answers)
  | goesOn follows later => exact .goesOn (same.trans follows) later

/-- The loop that begins with the first state goes through the second one. -/
inductive Meets (first : State) : State → Prop
  | begins : Meets first first
  | goesOn {now next : State} (earlier : Meets first now) (follows : round now = .inr next) :
      Meets first next

end

namespace Bytes

/-- How many bytes stand before the first occurrence of `needle` from `place` on. -/
def indexFrom? (text needle : Bytes) (place : Nat) : Option Nat :=
  (indexOf? (text.drop place) needle).map (place + ·)

theorem indexFrom?_append (front rest needle : Bytes) :
    indexFrom? (front ++ rest) needle front.length =
      (indexOf? rest needle).map (front.length + ·) := by
  rw [indexFrom?, List.drop_left]

/-- A place where the needle does not stand is passed over. -/
theorem indexFrom?_succ {needle rest : Bytes} {b : UInt8} (front : Bytes)
    (notHere : ¬ needle <+: b :: rest) :
    indexFrom? (front ++ b :: rest) needle front.length =
      indexFrom? (front ++ b :: rest) needle (front.length + 1) := by
  have parts : front ++ b :: rest = (front ++ [b]) ++ rest := by simp
  have places : front.length + 1 = (front ++ [b]).length := by simp
  rw [indexFrom?_append, indexOf?_cons,
    if_neg fun found => notHere (List.isPrefixOf_iff_prefix.1 found), parts, places,
    indexFrom?_append]
  cases indexOf? rest needle with
  | none => rfl
  | some found => simp [Nat.add_assoc, Nat.add_comm 1]

end Bytes

end Assay
