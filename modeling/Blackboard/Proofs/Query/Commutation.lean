import Blackboard.Proofs.Query.Completion
import Blackboard.Proofs.Query.Reordering
import Blackboard.Proofs.Value.Keys
import Mathlib.Data.Multiset.Bind

/-!
# The order of patterns

A conjunction is evaluated from left to right, and the order of its patterns decides which
occurrence of a variable binds it and which are compared. As equality is symmetric and
transitive, the same choices of facts fit in every order, and what they bind differs at most
in the variant of an equal value that came first (`Match.fit?_alike`). So a query finds
matches that are alike, one for one, whatever the order of its patterns
(`Database.query_ignores_order`).
-/

namespace Blackboard

/-! ## Fitting in another order -/

theorem firstValue?_eq_none_iff (x : String) (pairs : List (Arg × Value)) :
    firstValue? x pairs = none ↔ ∀ value, (Arg.var x, value) ∉ pairs := by
  constructor
  · intro missing value member
    have unnamed := List.findSome?_eq_none_iff.mp missing _ member
    simp [Arg.variableName?] at unnamed
  · intro missing
    cases found : firstValue? x pairs with
    | none => rfl
    | some value => cases missing value (mem_of_firstValue?_eq_some found)

namespace Match

/-- Matches that bind the same variables, each to values that are alike. -/
def Alike (m n : Match) : Prop := ∀ x, Option.Rel Value.Alike (m.get? x) (n.get? x)

theorem Alike.refl (m : Match) : Alike m m := by
  intro x
  cases m.get? x with
  | none => exact .none
  | some value => exact .some (.refl value)

theorem alike_iff (m n : Match) : Alike m n ↔ ∀ x,
    (m.get? x = none → n.get? x = none) ∧
      ∀ value, m.get? x = some value → ∃ other, n.get? x = some other ∧ value.Alike other := by
  refine forall_congr' fun x => ?_
  generalize m.get? x = left
  generalize n.get? x = right
  constructor
  · intro related
    cases related with
    | none => simp
    | some alike => simpa using alike
  · rintro ⟨unbound, bound⟩
    cases left with
    | none =>
        rw [unbound rfl]
        exact .none
    | some value =>
        obtain ⟨other, rfl, alike⟩ := bound value rfl
        exact .some alike

theorem Alike.symm {m n : Match} (alike : Alike m n) : Alike n m := by
  intro x
  have related := alike x
  generalize m.get? x = left at related
  generalize n.get? x = right at related
  cases related with
  | none => exact .none
  | some alike => exact .some alike.symm

theorem Alike.trans {l m n : Match} (first : Alike l m) (second : Alike m n) : Alike l n := by
  rw [alike_iff] at first second ⊢
  intro x
  refine ⟨fun unbound => (second x).1 ((first x).1 unbound), fun value got => ?_⟩
  obtain ⟨middle, middleGot, alike⟩ := (first x).2 value got
  obtain ⟨other, otherGot, alike'⟩ := (second x).2 middle middleGot
  exact ⟨other, otherGot, alike.trans alike'⟩

instance : IsTrans Match Alike := ⟨fun _ _ _ => Alike.trans⟩

/-- Where pairs fit, the values of a repeated open variable equal one another. -/
theorem Fits.coherent {m : Match} {pairs : List (Arg × Value)} (fits : m.Fits pairs) :
    m.Coherent pairs := by
  induction pairs generalizing m with
  | nil => exact .nil
  | cons pair rest ih =>
      rcases pair with ⟨arg, value⟩
      cases arg with
      | val constant =>
          have fitsRest := ((m.fits_val_iff constant value rest).mp fits).2
          exact .cons (fun _ _ x here => nomatch here) (ih fitsRest)
      | var x =>
          cases got : m.get? x with
          | some bound =>
              have fitsRest := ((fits_var_of_bound_iff got value rest).mp fits).2
              refine .cons (fun _ _ y here _ unbound => ?_) (ih fitsRest)
              obtain rfl : x = y := Arg.var.inj here
              cases got.symm.trans unbound
          | none =>
              have fitsRest := (fits_var_of_unbound_iff got value rest).mp fits
              have repeated : ∀ held, (Arg.var x, held) ∈ rest → (held == value) = true :=
                fun held member => fitsRest.beq_of_resolve member (by
                  simp [Captures.resolve, get?_bind])
              refine .cons ?_ ((ih fitsRest).imp_of_mem ?_)
              · rintro ⟨_, held⟩ member y here rfl _
                obtain rfl : x = y := Arg.var.inj here
                exact repeated held member
              · rintro ⟨_, first⟩ ⟨_, second⟩ firstMem secondMem coherent y rfl rfl unbound
                by_cases same : x = y
                · subst y
                  exact Value.beq_trans (repeated second secondMem)
                    (Value.beq_symm (repeated first firstMem))
                · exact coherent y rfl rfl (by rw [get?_bind, if_neg same, unbound])

/-- Values of one open variable, in any order. -/
theorem Fits.alike_of_mem {m : Match} {pairs : List (Arg × Value)} (fits : m.Fits pairs)
    {x : String} (unbound : m.get? x = none) {first second : Value}
    (firstMem : (Arg.var x, first) ∈ pairs) (secondMem : (Arg.var x, second) ∈ pairs) :
    first.Alike second := by
  let related (earlier later : Arg × Value) : Prop :=
    earlier.1 = .var x → later.1 = .var x → earlier.2.Alike later.2
  have symmetric : Std.Symm related := ⟨fun _ _ alike here there => (alike there here).symm⟩
  have alike : pairs.Pairwise related := fits.coherent.imp fun coherent here there =>
    .inr (Value.beq_symm (coherent x here there unbound))
  exact alike.forall_of_forall (fun pair _ _ _ => .refl pair.2) firstMem secondMem rfl rfl

section Reordered

variable {m n : Match} {pairs others : List (Arg × Value)}

/-- Whether pairs fit does not depend on their order, nor on which of several values that are
alike a match binds. -/
theorem Fits.of_alike (alike : Alike m n) (perm : pairs.Perm others) (fits : m.Fits pairs) :
    n.Fits others := by
  refine fits_of_resolve ?_ ?_
  · intro arg value member held resolved
    have before : (arg, value) ∈ pairs := perm.mem_iff.mpr member
    cases arg with
    | val constant => exact fits.beq_of_resolve before resolved
    | var x =>
        obtain ⟨held', got, heldAlike⟩ := ((alike_iff n m).mp alike.symm x).2 held resolved
        exact (Value.Alike.refl value).beq heldAlike.symm (fits.beq_of_resolve before got)
  · have coherent : m.Coherent others := by
      refine (perm.pairwise_iff ?_).mp fits.coherent
      exact fun found x here there unbound => Value.beq_symm (found x there here unbound)
    refine List.Pairwise.imp (fun found x here there unbound => ?_) coherent
    exact found x here there (((alike_iff n m).mp alike.symm x).1 unbound)

/-- The values that pairs in another order bind are alike. -/
theorem Fits.firstValue?_alike (perm : pairs.Perm others) (fits : m.Fits pairs) {x : String}
    (unbound : m.get? x = none) :
    Option.Rel Value.Alike (firstValue? x pairs) (firstValue? x others) := by
  cases found : firstValue? x pairs with
  | none =>
      rw [firstValue?_eq_none_iff] at found
      rw [(firstValue?_eq_none_iff x others).mpr fun value => perm.mem_iff.not.mp (found value)]
      exact .none
  | some value =>
      have member := mem_of_firstValue?_eq_some found
      cases found' : firstValue? x others with
      | none => cases (firstValue?_eq_none_iff x others).mp found' value (perm.mem_iff.mp member)
      | some other =>
          exact .some (fits.alike_of_mem unbound member
            (perm.mem_iff.mpr (mem_of_firstValue?_eq_some found')))

/-- Pairs in another order make of matches that are alike matches that are alike. -/
theorem fit?_alike (alike : Alike m n) (perm : pairs.Perm others) :
    Option.Rel Alike (m.fit? pairs) (n.fit? others) := by
  cases fitted : m.fit? pairs with
  | none =>
      cases fitted' : n.fit? others with
      | none => exact .none
      | some n' =>
          have fits' := (n.exists_fit?_iff others).mp ⟨n', fitted'⟩
          obtain ⟨m', exists'⟩ :=
            (m.exists_fit?_iff pairs).mpr (fits'.of_alike alike.symm perm.symm)
          cases fitted.symm.trans exists'
  | some m' =>
      have fits := (m.exists_fit?_iff pairs).mp ⟨m', fitted⟩
      obtain ⟨n', fitted'⟩ := (n.exists_fit?_iff others).mpr (fits.of_alike alike perm)
      rw [fitted']
      refine .some fun x => ?_
      rw [get?_of_fit?_eq_some fitted, get?_of_fit?_eq_some fitted']
      cases got : m.get? x with
      | none =>
          rw [((alike_iff m n).mp alike x).1 got]
          exact fits.firstValue?_alike perm got
      | some value =>
          obtain ⟨other, got', valueAlike⟩ := ((alike_iff m n).mp alike x).2 value got
          rw [got']
          exact .some valueAlike

end Reordered

end Match

/-! ## Two patterns in either order -/

namespace Claim

/-- Extending a match by two patterns, one after the other, fits the arguments of both. -/
theorem fit?_bind_fit? (first second : Claim) (m : Match) (s t : Tuple) :
    ((first.fit? m s).bind fun n => second.fit? n t) =
      if s.length = first.args.length ∧ t.length = second.args.length then
        m.fit? (first.args.zip s ++ second.args.zip t)
      else
        none := by
  unfold fit?
  rw [Match.fit?_append]
  by_cases left : s.length = first.args.length <;> by_cases right : t.length = second.args.length
  · simp [left, right]
  · simp [left, right]
  · simp [left]
  · simp [left]

/-- Two patterns extend a match alike in either order. -/
theorem fit?_comm {m n : Match} (alike : m.Alike n) (first second : Claim) (s t : Tuple) :
    Option.Rel Match.Alike ((first.fit? m s).bind fun m' => second.fit? m' t)
      ((second.fit? n t).bind fun n' => first.fit? n' s) := by
  rw [fit?_bind_fit?, fit?_bind_fit?]
  by_cases arity : s.length = first.args.length ∧ t.length = second.args.length
  · rw [if_pos arity, if_pos arity.symm]
    exact Match.fit?_alike alike List.perm_append_comm
  · rw [if_neg arity, if_neg fun swapped => arity swapped.symm]
    exact .none

theorem fit?_alike {m n : Match} (alike : m.Alike n) (pattern : Claim) (tuple : Tuple) :
    Option.Rel Match.Alike (pattern.fit? m tuple) (pattern.fit? n tuple) := by
  unfold fit?
  split
  · exact Match.fit?_alike alike (.refl _)
  · exact .none

end Claim

namespace Store

/-! ## Conjunctions in any order -/

/-- The matches that all ways of joining patterns come to, in no order. -/
def gathered (facts : String → List Tuple) : List Claim → Match → Multiset Match
  | [], m => {m}
  | pattern :: patterns, m =>
    (facts pattern.name : Multiset Tuple).bind fun tuple =>
      (pattern.fit? m tuple).elim 0 (gathered facts patterns)

theorem Indexed.coe_joined {store : Store} (indexed : store.Indexed) (patterns : List Claim)
    (m : Match) : (store.joined patterns m : Multiset Match) = gathered store.facts patterns m := by
  induction patterns generalizing m with
  | nil => rfl
  | cons pattern patterns ih =>
      rw [joined, gathered, indexed.extensions_eq, List.filterMap_eq_flatMap_toList,
        List.flatMap_assoc, ← Multiset.coe_bind]
      refine Multiset.bind_congr fun tuple _ => ?_
      cases pattern.fit? m tuple with
      | none => rfl
      | some n => simp [ih]

/-- What is made of matches that are alike, or of none on both sides. -/
theorem rel_elim {first second : Option Match} (alike : Option.Rel Match.Alike first second)
    {f g : Match → Multiset Match}
    (further : ∀ m n, m.Alike n → Multiset.Rel Match.Alike (f m) (g n)) :
    Multiset.Rel Match.Alike (first.elim 0 f) (second.elim 0 g) := by
  cases alike with
  | none => exact .zero
  | some alike => exact further _ _ alike

theorem rel_bind_tuples (tuples : Multiset Tuple) {f g : Tuple → Multiset Match}
    (alike : ∀ tuple, Multiset.Rel Match.Alike (f tuple) (g tuple)) :
    Multiset.Rel Match.Alike (tuples.bind f) (tuples.bind g) := by
  refine Multiset.rel_bind (r := (· = ·)) ?_ Multiset.rel_eq_refl
  rintro tuple _ rfl
  exact alike tuple

/-- Matches that are alike are joined to matches that are alike. -/
theorem gathered_alike (facts : String → List Tuple) (patterns : List Claim) {m n : Match}
    (alike : m.Alike n) :
    Multiset.Rel Match.Alike (gathered facts patterns m) (gathered facts patterns n) := by
  induction patterns generalizing m n with
  | nil => exact .cons alike .zero
  | cons pattern patterns ih =>
      refine rel_bind_tuples _ fun tuple => ?_
      exact rel_elim (pattern.fit?_alike alike tuple) fun _ _ => ih

/-- Two patterns in front are joined together. -/
theorem gathered_cons_cons (facts : String → List Tuple) (first second : Claim)
    (patterns : List Claim) (m : Match) :
    gathered facts (first :: second :: patterns) m =
      (facts first.name : Multiset Tuple).bind fun s =>
        (facts second.name : Multiset Tuple).bind fun t =>
          ((first.fit? m s).bind fun n => second.fit? n t).elim 0 (gathered facts patterns) := by
  rw [gathered]
  refine Multiset.bind_congr fun s _ => ?_
  cases first.fit? m s with
  | none => simp
  | some n => rfl

/-- Joining patterns in another order comes to matches that are alike. -/
theorem gathered_perm (facts : String → List Tuple) {patterns others : List Claim}
    (perm : patterns.Perm others) {m n : Match} (alike : m.Alike n) :
    Multiset.Rel Match.Alike (gathered facts patterns m) (gathered facts others n) := by
  induction perm generalizing m n with
  | nil => exact gathered_alike facts [] alike
  | cons pattern _ ih =>
      refine rel_bind_tuples _ fun tuple => ?_
      exact rel_elim (pattern.fit?_alike alike tuple) fun _ _ => ih
  | swap first second patterns =>
      rw [gathered_cons_cons, gathered_cons_cons, Multiset.bind_bind]
      refine rel_bind_tuples _ fun s => rel_bind_tuples _ fun t => ?_
      exact rel_elim (second.fit?_comm alike first t s) fun _ _ => gathered_alike facts patterns
  | trans _ _ ihLeft ihRight => exact (ihLeft (.refl m)).trans Match.Alike (ihRight alike)

/-- The answers to a conjunction in two orders bind the same variables to values that are
alike, match by match. -/
theorem Indexed.answer_found_alike {store : Store} (indexed : store.Indexed)
    {patterns others : List Claim} (perm : patterns.Perm others) :
    Multiset.Rel Match.Alike ((store.answer patterns).found : Multiset Match)
      ((store.answer others).found : Multiset Match) := by
  have found (patterns : List Claim) :
      ((store.answer patterns).found : Multiset Match) = gathered store.facts patterns ∅ := by
    rw [answer, joinAll_found, List.flatMap_singleton, indexed.coe_joined]
  rw [found, found]
  exact gathered_perm store.facts perm (.refl ∅)

/-- A value that a query binds is held by a fact. -/
theorem Indexed.exists_fact_of_bound {store : Store} (indexed : store.Indexed)
    {patterns : List Claim} {m : Match} (member : m ∈ (store.answer patterns).found) {x : String}
    {value : Value} (bound : m.get? x = some value) :
    ∃ name, ∃ tuple ∈ store.facts name, value ∈ tuple := by
  rw [indexed.answer_found] at member
  obtain ⟨⟨choice, _⟩, listed, rfl⟩ := List.mem_map.mp member
  obtain ⟨stored, _, fitted⟩ := (mem_choices_iff _ _ _ _ _).mp listed
  rw [Match.get?_of_fit?_eq_some fitted, Match.get?_empty, Option.none_or] at bound
  obtain ⟨⟨pattern, tuple⟩, chosen, beside⟩ :=
    List.mem_flatMap.mp (mem_of_firstValue?_eq_some bound)
  rw [List.zip_map_right] at chosen
  obtain ⟨⟨pattern', place⟩, placed, split⟩ := List.mem_map.mp chosen
  obtain ⟨rfl, rfl⟩ := Prod.mk.inj split
  have here := (List.forall₂_iff_zip.mp stored).2 placed
  exact ⟨pattern'.name, place.2, List.mem_of_getElem? here, (List.of_mem_zip beside).2⟩

end Store

namespace Match

/-- Matches that bind the same variables, each to variants of one value. -/
def Variant (m n : Match) : Prop := ∀ x, Option.Rel Value.Variant (m.get? x) (n.get? x)

end Match

namespace Database

/-- Structured values that were made at one place carry one document throughout the claims. -/
def OneDocument (claims : List Claim) : Prop :=
  ∀ claim ∈ claims, ∀ other ∈ claims, ∀ origin payload payload',
    .val (.structured origin payload) ∈ claim.args →
    .val (.structured origin payload') ∈ other.args → payload = payload'

/-- A value that a query binds is an argument of a claim. -/
theorem exists_claim_of_bound {claims patterns : List Claim} {m : Match}
    (member : m ∈ ((Store.ofClaims claims).answer patterns).found) {x : String} {value : Value}
    (bound : m.get? x = some value) : ∃ claim ∈ claims, .val value ∈ claim.args := by
  obtain ⟨name, tuple, stored, held⟩ :=
    (Store.indexed_ofClaims claims).exists_fact_of_bound member bound
  rw [Store.facts, Store.tuples_ofClaims, Store.mem_factsOf_iff] at stored
  obtain ⟨claim, listed, _, _, valuesEq⟩ := stored
  have argsEq := (claim.values?_eq_some_iff tuple).mp valuesEq
  exact ⟨claim, listed, argsEq ▸ List.mem_map_of_mem held⟩

/-- The order in which facts were inserted and the order of the patterns are immaterial to
what a query finds. For the same patterns it finds the same matches, and for patterns in
another order as many, which bind the same variables to values that are alike, match by
match. Where no instance carries two documents, such values are identical or differ as `int`
and `float` of one number, or as zeros. A query leaves facts and templates as they are. -/
theorem query_ignores_order {claims otherClaims patterns otherPatterns : List Claim}
    (facts : claims.Perm otherClaims) (conjunction : patterns.Perm otherPatterns)
    (captures otherCaptures : Captures) :
    let db : Database := { store := .ofClaims claims, captures }
    let other : Database := { store := .ofClaims otherClaims, captures := otherCaptures }
    (db.query patterns).1.Perm (other.query patterns).1 ∧
    (db.query patterns).1.length = (other.query otherPatterns).1.length ∧
    Multiset.Rel Match.Alike (db.query patterns).1 (other.query otherPatterns).1 ∧
    (OneDocument claims →
      Multiset.Rel Match.Variant (db.query patterns).1 (other.query otherPatterns).1) ∧
    (db.query patterns).2.store = (db.query otherPatterns).2.store ∧
    (db.query patterns).2.captures.templates = (db.query otherPatterns).2.captures.templates := by
  intro db other
  have sameFacts : db.store.SameFacts other.store :=
    (Store.SameFacts.refl Store.indexed_empty).insertAll facts
  have found : (db.query patterns).1.Perm (other.query patterns).1 :=
    sameFacts.answer_found patterns
  have alike : Multiset.Rel Match.Alike (db.query patterns).1 (other.query otherPatterns).1 := by
    rw [Multiset.coe_eq_coe.mpr found]
    exact (Store.indexed_ofClaims otherClaims).answer_found_alike conjunction
  refine ⟨found, by simpa using Multiset.card_eq_card_of_rel alike, alike, ?_, rfl, ?_⟩
  · intro oneDocument
    refine alike.mono fun m mFound n nFound related x => ?_
    cases got : m.get? x with
    | none =>
        rw [((m.alike_iff n).mp related x).1 got]
        exact .none
    | some value =>
        obtain ⟨value', got', valueAlike⟩ := ((m.alike_iff n).mp related x).2 value got
        rw [got']
        refine .some (valueAlike.variant fun origin payload payload' here there => ?_)
        obtain ⟨claim, listed, held⟩ := exists_claim_of_bound mFound got
        obtain ⟨claim', listed', held'⟩ := exists_claim_of_bound nFound got'
        exact oneDocument claim listed claim' (facts.mem_iff.mpr listed') origin payload payload'
          (here ▸ held) (there ▸ held')
  · rw [templates_query, templates_query]

/-- A claim about what somebody has. -/
def having (thing : String) (holder amount : Arg) : Claim :=
  { name := s!"@ has {thing} @", args := [holder, amount] }

/-- A whole number and an equal number under one variable: the pattern that comes first
decides which of them is bound. -/
theorem query_ignores_order_of_equal_numbers :
    let claims := [having "apples" (.val (.text "Homer")) (.val (.int 2)),
      having "pears" (.val (.text "Homer")) (.val (.float ⟨0x4000000000000000⟩))]
    let patterns := [having "apples" (.var "x") (.var "n"), having "pears" (.var "x") (.var "n")]
    let db : Database := { store := .ofClaims claims }
    let other : Database := { store := .ofClaims claims.reverse }
    claims.Perm claims.reverse ∧ patterns.Perm patterns.reverse ∧
    Multiset.Rel Match.Variant (db.query patterns).1 (other.query patterns.reverse).1 ∧
    (db.query patterns).1.map (fun m => (m.get? "n").map Value.kind) = [some "int"] ∧
    (other.query patterns.reverse).1.map (fun m => (m.get? "n").map Value.kind) =
      [some "float"] := by
  intro claims patterns db other
  have facts : claims.Perm claims.reverse := (List.reverse_perm claims).symm
  have conjunction : patterns.Perm patterns.reverse := (List.reverse_perm patterns).symm
  have oneDocument : OneDocument claims := by simp [OneDocument, claims, having]
  have ordered := query_ignores_order facts conjunction ∅ ∅
  exact ⟨facts, conjunction, ordered.2.2.2.1 oneDocument, by decide +kernel, by decide +kernel⟩

end Database

end Blackboard
