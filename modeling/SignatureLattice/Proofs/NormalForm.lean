/-
Module: SignatureLattice.Proofs.NormalForm
Purpose: A built signature keeps exactly what it was built to say. Normalizing drops an optional
  formal only where the type of further arguments says the same, and drops all such formals: so a
  built signature demands at every position what it was to demand, and two built signatures are
  equal as soon as they demand the same everywhere. What is built is in normal form, so that it can
  be built again from the answers to the questions about it.
Main exports: Prototype, Prototype.demandAt, Prototype.signature, Shape.normalized_same_iff,
  Signature.rebuild, Signature.redraft, normalized_canonical
-/
import SignatureLattice.Proofs.Fingerprinting
import SignatureLattice.Proofs.Fitting
import SignatureLattice.Proofs.Totality

namespace SignatureLattice

open Outcome

/-!
### Prototypes
-/

/-- The formals and the result that a signature is to have. All of them are there; only the type of
    further arguments may be left out. -/
structure Prototype where
  required : List Ty := []
  optional : List Ty := []
  rest : Slot := none
  result : Ty

namespace Prototype

/-- What the signature is to demand at a position: the required formal there, or else the optional
    formal, or else the type of further arguments. -/
def demandAt (p : Prototype) (i : Nat) : Slot :=
  (p.required[i]?.or p.optional[i - p.required.length]?).or p.rest

/-- The shape that the prototype spells out. -/
def shape (p : Prototype) : Shape where
  required := p.required.map some
  optional := p.optional.map some
  rest := p.rest
  result := some p.result

/-- The signature that is built of the prototype. -/
def signature (p : Prototype) : Signature :=
  .shaped p.shape.normalized

theorem formalAt?_shape (p : Prototype) (i : Nat) : p.shape.formalAt? i = p.demandAt i := by
  rw [Shape.formalAt?, shape, ← List.map_append, List.getD_eq_getElem?_getD, List.getElem?_map,
    List.getElem?_append, demandAt]
  by_cases inside : i < p.required.length
  · rw [if_pos inside, List.getElem?_eq_getElem inside]
    rfl
  · rw [if_neg inside, List.getElem?_eq_none (Nat.le_of_not_lt inside), Option.none_or]
    cases p.optional[i - p.required.length]? with
    | none => rfl
    | some t => rfl

theorem validate_shape (p : Prototype) : p.shape.validate = .ok () := by
  apply Shape.validate_eq_ok.2
  constructor
  · intro x hx
    rw [shape, ← List.map_append] at hx
    obtain ⟨t, -, rfl⟩ := List.mem_map.1 hx
    rfl
  · rfl

end Prototype

/-!
### Equal normal forms

Two normal forms that demand the same everywhere cannot differ in length: the last optional formal
of the longer one would repeat what the shorter one, and so the longer one itself, demands of all
further arguments.
-/

namespace Shape

variable {s t : Shape}

private theorem span_le_of_formalAt? (valid : t.validate = .ok ()) (stripped : t.Stripped)
    (required : s.required.length = t.required.length)
    (demands : ∀ i, Slot.same (s.formalAt? i) (t.formalAt? i) = true) : t.span ≤ s.span := by
  by_contra longer
  have less : s.span < t.span := Nat.lt_of_not_le longer
  have optional : t.required.length < t.span := by
    have enough : s.required.length ≤ s.span := Nat.le_add_right _ _
    omega
  have repeated : Slot.same t.rest (t.formalAt? (t.span - 1)) = true := by
    apply Slot.same_equivalence.trans (y := s.rest)
    · have far := demands (max s.span t.span)
      rw [formalAt?_of_le (Nat.le_max_left _ _), formalAt?_of_le (Nat.le_max_right _ _)] at far
      exact Slot.same_equivalence.symm far
    · have last := demands (t.span - 1)
      rwa [formalAt?_of_le (Nat.le_sub_one_of_lt less)] at last
  have rest : t.rest.isSome := by
    obtain ⟨a, ha⟩ := exists_formalAt? valid (Nat.sub_one_lt_of_lt less)
    rw [ha] at repeated
    cases here : t.rest with
    | none => simp [here, Slot.same] at repeated
    | some r => rfl
  have differs := last_differs stripped optional rest
  rw [repeated] at differs
  exact Bool.noConfusion differs

/-- The normal forms of valid shapes are equal just when the shapes require as many arguments, have
    equal results and demand equal types at every position. -/
theorem normalized_same_iff (hs : s.validate = .ok ()) (ht : t.validate = .ok ()) :
    s.normalized.same t.normalized = true ↔
      s.required.length = t.required.length ∧ Slot.same s.result t.result = true ∧
        ∀ i, Slot.same (s.formalAt? i) (t.formalAt? i) = true := by
  have trans := @Slot.same_equivalence.trans
  have symm := @Slot.same_equivalence.symm
  constructor
  · intro same
    obtain ⟨required, -, -, -, result⟩ := same_iff_formalAt?.1 same
    rw [normalized_required, normalized_required] at required
    rw [normalized_result, normalized_result] at result
    refine ⟨required, result, fun i => ?_⟩
    exact trans (symm (s.formalAt?_normalized i))
      (trans (same_formalAt? same i) (t.formalAt?_normalized i))
  · rintro ⟨required, result, demands⟩
    have shown : ∀ i, Slot.same (s.normalized.formalAt? i) (t.normalized.formalAt? i) = true :=
      fun i => trans (s.formalAt?_normalized i)
        (trans (demands i) (symm (t.formalAt?_normalized i)))
    have lengths : s.normalized.required.length = t.normalized.required.length := by
      rw [normalized_required, normalized_required, required]
    have span : s.normalized.span = t.normalized.span := by
      apply Nat.le_antisymm
      · exact span_le_of_formalAt? (validate_normalized hs) s.normalized_stripped lengths.symm
          fun i => symm (shown i)
      · exact span_le_of_formalAt? (validate_normalized ht) t.normalized_stripped lengths shown
    have rest := shown (max s.normalized.span t.normalized.span)
    rw [formalAt?_of_le (Nat.le_max_left _ _), formalAt?_of_le (Nat.le_max_right _ _)] at rest
    refine same_iff_formalAt?.2 ⟨lengths, span, fun i _ => shown i, rest, ?_⟩
    rwa [normalized_result, normalized_result]

end Shape

/-!
### Building a signature again

The answers to the questions about a signature are enough to build it again, all at once or
statement by statement.
-/

/-- Builds a signature of the answers to the questions about another one. -/
def Signature.rebuild (f : Signature) : Except Violation Signature := do
  let required ← f.required
  let optional ← f.optional
  let rest ← f.rest
  let result ← f.result
  let captures ← f.captures
  return .shaped (Shape.normalized
    { required, optional, rest, result, owner := f.owner?, captures, loose := f.isLoose })

/-- Drafts a signature of the answers to the questions about another one, with a statement for each
    of them. -/
def Signature.redraft (f : Signature) : Except Violation Signature := do
  let required ← f.required
  let optional ← f.optional
  let rest ← f.rest
  let result ← f.result
  let captures ← f.captures
  let spelled : Shape := { required, optional, rest, result, loose := f.isLoose }
  let d ← Draft.accept {} (spelled.statements ++ f.owner?.toList.map .owner
    ++ captures.map fun capture => .capture capture.1 capture.2)
  return .shaped d.build

theorem Draft.accept_owner (d : Draft) (owner : Option NamedClass) :
    d.accept (owner.toList.map .owner) = .ok { d with owner := owner.or d.owner } := by
  cases owner with
  | none => rfl
  | some c => rfl

theorem Draft.accept_captures (d : Draft) (captures : List (String × Slot)) :
    d.accept (captures.map fun capture => .capture capture.1 capture.2) =
      .ok { d with
            captures := captures.foldl (fun made capture => made.insert capture.1 capture.2)
              d.captures } := by
  induction captures generalizing d with
  | nil => rfl
  | cons capture captures ih =>
      exact ih { d with captures := d.captures.insert capture.1 capture.2 }

namespace Shape

variable {s : Shape}

theorem rebuild_eq (stripped : s.Stripped) : (Signature.shaped s).rebuild = .ok (.shaped s) := by
  have built : (Signature.shaped s).rebuild = .ok (.shaped s.normalized) := by
    cases s
    rfl
  rw [built, normalized_of_stripped stripped]

theorem redraft_eq (stripped : s.Stripped) (sorted : Bindings.Sorted s.captures) :
    (Signature.shaped s).redraft = .ok (.shaped s) := by
  have captures : s.captures.foldl
      (fun made capture => Bindings.insert made capture.1 capture.2) [] = s.captures :=
    Bindings.ofList_of_sorted sorted
  have built : (Signature.shaped s).redraft = .ok (.shaped s.normalized) := by
    simp only [Signature.redraft, Signature.required, Signature.optional, Signature.rest,
      Signature.result, Signature.captures, Signature.shape, Functor.map, Except.map, bind,
      Except.bind, Draft.accept_append, accept_statements, Draft.accept_owner,
      Draft.accept_captures, captures, Option.or_none]
    cases s
    rfl
  rw [built, normalized_of_stripped stripped]

end Shape

/-!
### Main theorem
-/

/-- Normal form is canonical. Signatures built of two prototypes are equal just when these require
    as many arguments, have equal results and demand equal types, or both nothing, at every
    position.
    A built signature demands at every position what the prototype says. And whatever a signature
    was built of, incomplete or loose, with a constructed class and with captured variables, it is
    built again from its own answers without any change, at once and statement by statement. -/
theorem normalized_canonical :
    (∀ p q : Prototype, p.signature.same q.signature = true ↔
      p.required.length = q.required.length ∧ p.result.same q.result = true ∧
        ∀ i, Slot.same (p.demandAt i) (q.demandAt i) = true) ∧
    (∀ (p : Prototype) (i : Nat), ∃ x, p.signature.formalAt i = .ok x ∧
      Slot.same x (p.demandAt i) = true) ∧
    ∀ (required optional : List Slot) (rest result : Slot) (owner : Option NamedClass)
      (captures : List (String × Slot)) (loose : Bool),
      let f : Signature := .shaped (Shape.normalized
        { required, optional, rest, result, owner, captures := Bindings.ofList captures, loose })
      f.rebuild = .ok f ∧ f.redraft = .ok f := by
  refine ⟨fun p q => ?_, fun p i => ?_, ?_⟩
  · have shapes := Shape.normalized_same_iff p.validate_shape q.validate_shape
    simp only [Prototype.formalAt?_shape] at shapes
    simpa [Prototype.signature, Signature.same, Prototype.shape, Slot.same] using shapes
  · refine ⟨p.shape.normalized.formalAt? i, ?_, ?_⟩
    · have valid := Shape.validate_normalized p.validate_shape
      simp [Prototype.signature, Signature.formalAt, Signature.shape, valid, bind, Except.bind,
        pure, Except.pure]
    · rw [← p.formalAt?_shape]
      exact p.shape.formalAt?_normalized i
  · intro required optional rest result owner captures loose f
    constructor
    · exact Shape.rebuild_eq (Shape.normalized_stripped _)
    · apply Shape.redraft_eq (Shape.normalized_stripped _)
      obtain ⟨optional, -, eq⟩ := Shape.normalized_eq
        { required, optional, rest, result, owner, captures := Bindings.ofList captures, loose }
      rw [eq]
      exact Bindings.sorted_ofList captures

end SignatureLattice
