import Blackboard.Settle
import Mathlib.Logic.Basic

/-!
# Matches that are handed over one at a time

An each or a capture rule is handed matches up to the first for which its callback
fails (`Rule.deliverEach_cases`). Whether they come in one round or in several makes
no difference (`Rule.deliverEach_append`).
-/

namespace Blackboard

namespace Rule

theorem kind_of_capture {rule : Rule} {pattern : Claim} {callback : Context → Match → Reaction}
    (body : rule.body = .capture pattern callback) : rule.kind = .capture :=
  congrArg RuleBody.kind body

theorem exists_body_of_capture {rule : Rule} (capture : rule.kind = .capture) :
    ∃ pattern callback, rule.body = .capture pattern callback := by
  unfold kind at capture
  cases body : rule.body with
  | each patterns callback => rw [body] at capture; cases capture
  | grouped patterns callback => rw [body] at capture; cases capture
  | capture pattern callback => exact ⟨pattern, callback, rfl⟩

theorem invoke_of_capture {rule : Rule} {pattern : Claim}
    {callback : Context → Match → Reaction} (body : rule.body = .capture pattern callback)
    (tick iteration turn : Nat) (found : List Match) :
    (rule.invoke tick iteration turn found).toDelivery =
      rule.deliverEach tick callback turn found := by
  unfold invoke deliver
  rw [body]

/-- The callback fails for a match that it is handed at a turn. -/
def Fails (rule : Rule) (tick : Nat) (callback : Context → Match → Reaction) (turn : Nat)
    (m : Match) : Prop :=
  (callback (rule.context tick turn) m).outcome.failure? ≠ none

variable {rule : Rule} {tick : Nat} {callback : Context → Match → Reaction}

theorem deliverEach_cons_of_fails {turn : Nat} {m : Match}
    (fails : rule.Fails tick callback turn m) (rest : List Match) :
    (rule.deliverEach tick callback turn (m :: rest)).delivered = [m] ∧
      (rule.deliverEach tick callback turn (m :: rest)).failure =
        (callback (rule.context tick turn) m).outcome.failure? := by
  obtain ⟨failure, failed⟩ := Option.ne_none_iff_exists'.mp fails
  simp [deliverEach, failed]

theorem deliverEach_cons_of_succeeds {turn : Nat} {m : Match}
    (succeeds : ¬ rule.Fails tick callback turn m) (rest : List Match) :
    (rule.deliverEach tick callback turn (m :: rest)).delivered =
        m :: (rule.deliverEach tick callback (turn + 1) rest).delivered ∧
      (rule.deliverEach tick callback turn (m :: rest)).failure =
        (rule.deliverEach tick callback (turn + 1) rest).failure := by
  have done := not_not.mp succeeds
  simp [deliverEach, done]

variable (rule tick callback) in
/-- Matches are handed over up to the first failure: if there is none, all of them,
and otherwise the one that fails is the last. -/
theorem deliverEach_cases (turn : Nat) (found : List Match) :
    ((rule.deliverEach tick callback turn found).failure = none ∧
        (rule.deliverEach tick callback turn found).delivered = found) ∨
      ((rule.deliverEach tick callback turn found).failure ≠ none ∧
        ∃ j m, found[j]? = some m ∧ rule.Fails tick callback (turn + j) m ∧
          (∀ i < j, ∀ n, found[i]? = some n → ¬ rule.Fails tick callback (turn + i) n) ∧
          (rule.deliverEach tick callback turn found).delivered = found.take (j + 1)) := by
  induction found generalizing turn with
  | nil => exact .inl ⟨rfl, rfl⟩
  | cons m rest ih =>
      by_cases fails : rule.Fails tick callback turn m
      · obtain ⟨delivered, failure⟩ := deliverEach_cons_of_fails fails rest
        rw [delivered, failure]
        exact .inr ⟨fails, 0, m, rfl, fails, by simp, rfl⟩
      · obtain ⟨delivered, failure⟩ := deliverEach_cons_of_succeeds fails rest
        rw [delivered, failure]
        rcases ih (turn + 1) with ⟨done, all⟩ | ⟨failed, j, n, held, first, before, upTo⟩
        · exact .inl ⟨done, by rw [all]⟩
        · refine .inr ⟨failed, j + 1, n, held, ?_, ?_, by rw [upTo, List.take_succ_cons]⟩
          · rwa [Nat.add_right_comm] at first
          · intro i earlier n' here
            cases i with
            | zero =>
                obtain rfl : m = n' := by simpa using here
                exact fails
            | succ i =>
                have := before i (Nat.lt_of_succ_lt_succ earlier) n' here
                rwa [Nat.add_right_comm] at this

theorem delivered_of_done {turn : Nat} {found : List Match}
    (done : (rule.deliverEach tick callback turn found).failure = none) :
    (rule.deliverEach tick callback turn found).delivered = found := by
  rcases rule.deliverEach_cases tick callback turn found with ⟨_, all⟩ | ⟨failed, _⟩
  · exact all
  · exact absurd done failed

variable (rule tick callback) in
/-- Nothing fails if the callback fails for none of the matches. -/
theorem failure_eq_none_iff (turn : Nat) (found : List Match) :
    (rule.deliverEach tick callback turn found).failure = none ↔
      ∀ j m, found[j]? = some m → ¬ rule.Fails tick callback (turn + j) m := by
  constructor
  · intro done
    induction found generalizing turn with
    | nil => nofun
    | cons m rest ih =>
        by_cases fails : rule.Fails tick callback turn m
        · exact absurd ((deliverEach_cons_of_fails fails rest).2.symm.trans done) fails
        · have restDone := (deliverEach_cons_of_succeeds fails rest).2.symm.trans done
          intro j n held
          cases j with
          | zero =>
              obtain rfl : m = n := Option.some.inj held
              exact fails
          | succ j =>
              have := ih (turn + 1) restDone j n held
              rwa [Nat.add_right_comm] at this
  · intro succeeds
    rcases rule.deliverEach_cases tick callback turn found with
      ⟨done, _⟩ | ⟨_, j, m, held, fails, _⟩
    · exact done
    · exact absurd fails (succeeds j m held)

/-- The callback is run if there is anything to hand over. -/
theorem delivered_eq_nil_iff (turn : Nat) (found : List Match) :
    (rule.deliverEach tick callback turn found).delivered = [] ↔ found = [] := by
  cases found with
  | nil => exact iff_of_true rfl rfl
  | cons m rest =>
      by_cases fails : rule.Fails tick callback turn m
      · simp [(deliverEach_cons_of_fails fails rest).1]
      · simp [(deliverEach_cons_of_succeeds fails rest).1]

theorem delivered_prefix (turn : Nat) (found : List Match) :
    (rule.deliverEach tick callback turn found).delivered <+: found := by
  rcases rule.deliverEach_cases tick callback turn found with ⟨_, all⟩ | ⟨_, j, _, _, _, _, upTo⟩
  · exact ⟨[], by rw [all, List.append_nil]⟩
  · rw [upTo]
    exact List.take_prefix (j + 1) found

variable (rule tick callback) in
/-- Matches are left over if the callback fails for one that others follow. -/
theorem delivered_length_lt_iff (turn : Nat) (found : List Match) :
    (rule.deliverEach tick callback turn found).delivered.length < found.length ↔
      ∃ j m, found[j]? = some m ∧ rule.Fails tick callback (turn + j) m ∧
        j + 1 < found.length := by
  rcases rule.deliverEach_cases tick callback turn found with
    ⟨done, all⟩ | ⟨_, j, m, held, fails, before, upTo⟩
  · rw [all]
    have noneFails := (rule.failure_eq_none_iff tick callback turn found).mp done
    exact iff_of_false (Nat.lt_irrefl _) fun ⟨j, m, held, fails, _⟩ => noneFails j m held fails
  · have inside : j < found.length := (List.getElem?_eq_some_iff.mp held).1
    rw [upTo, List.length_take_of_le inside]
    constructor
    · exact fun followed => ⟨j, m, held, fails, followed⟩
    · rintro ⟨k, n, heldThere, failsThere, followed⟩
      have notBefore : ¬ k < j := fun earlier => before k earlier n heldThere failsThere
      omega

variable (rule tick callback) in
/-- Matches may be handed over in two rounds: the second follows if the first did
not fail. -/
theorem deliverEach_append (turn : Nat) (first second : List Match) :
    (rule.deliverEach tick callback turn (first ++ second)).delivered =
        (rule.deliverEach tick callback turn first).delivered ++
          (if (rule.deliverEach tick callback turn first).failure = none then
            (rule.deliverEach tick callback (turn + first.length) second).delivered
          else
            []) ∧
      (rule.deliverEach tick callback turn (first ++ second)).failure =
        (rule.deliverEach tick callback turn first).failure.or
          (rule.deliverEach tick callback (turn + first.length) second).failure := by
  induction first generalizing turn with
  | nil => exact ⟨rfl, rfl⟩
  | cons m rest ih =>
      rw [List.cons_append, List.length_cons]
      by_cases fails : rule.Fails tick callback turn m
      · obtain ⟨delivered, failure⟩ := deliverEach_cons_of_fails fails (rest ++ second)
        obtain ⟨deliveredFirst, failureFirst⟩ := deliverEach_cons_of_fails fails rest
        rw [delivered, failure, deliveredFirst, failureFirst, if_neg fails,
          Option.or_of_isSome (Option.isSome_iff_ne_none.mpr fails)]
        exact ⟨rfl, rfl⟩
      · obtain ⟨delivered, failure⟩ := deliverEach_cons_of_succeeds fails (rest ++ second)
        obtain ⟨deliveredFirst, failureFirst⟩ := deliverEach_cons_of_succeeds fails rest
        obtain ⟨ihDelivered, ihFailure⟩ := ih (turn + 1)
        have turns : turn + 1 + rest.length = turn + (rest.length + 1) := by omega
        rw [turns] at ihDelivered ihFailure
        rw [delivered, failure, deliveredFirst, failureFirst, ihDelivered, ihFailure]
        exact ⟨rfl, rfl⟩

end Rule

end Blackboard
