/-
Module: SignatureLattice.Proofs.Stating
Purpose: Drafts to which the parts of a signature are stated in the order of the finished signature.
  None of them is refused, so that stating each part as soon as it is worked out comes to the same
  as working out all of them first.
Main exports: Draft.accept_required, Draft.accept_optional, Draft.acceptEach_eq, Draft.compose_eq,
  Shape.statements, Shape.accept_statements
-/
import SignatureLattice.Draft
import SignatureLattice.Proofs.Outcome

namespace SignatureLattice

open Outcome

namespace Draft

theorem accept_append (d : Draft) (l m : List Step) :
    d.accept (l ++ m) = d.accept l >>= fun e => e.accept m :=
  List.foldlM_append

theorem accept_cons (d : Draft) (step : Step) (steps : List Step) :
    d.accept (step :: steps) = d.step step >>= fun e => e.accept steps :=
  List.foldlM_cons

theorem accept_required (d : Draft) (formals : List Slot)
    (order : d.optional = [] ∧ d.rest = none) :
    d.accept (formals.map .required) = .ok { d with required := d.required ++ formals } := by
  induction formals generalizing d with
  | nil => simp [accept, pure, Except.pure]
  | cons x formals ih =>
      have head : d.step (.required x) = .ok { d with required := d.required ++ [x] } := by
        simp [step, order]
      rw [List.map_cons, accept_cons, head]
      simpa [bind, Except.bind] using ih { d with required := d.required ++ [x] } order

theorem accept_optional (d : Draft) (formals : List Slot) (order : d.rest = none) :
    d.accept (formals.map .optional) = .ok { d with optional := d.optional ++ formals } := by
  induction formals generalizing d with
  | nil => simp [accept, pure, Except.pure]
  | cons x formals ih =>
      have head : d.step (.optional x) = .ok { d with optional := d.optional ++ [x] } := by
        simp [step, order]
      rw [List.map_cons, accept_cons, head]
      simpa [bind, Except.bind] using ih { d with optional := d.optional ++ [x] } order

/-- Where a draft refuses no statement of some kind, the statements can wait until all that goes
    into them is worked out. -/
theorem acceptEach_eq {d : Draft} {state : Slot → Step}
    (accepts : ∀ xs : List Slot, ∃ e, d.accept (xs.map state) = .ok e)
    (slot : Nat → Except Violation Slot) (positions : List Nat) :
    d.acceptEach state slot positions =
      positions.mapM slot >>= fun xs => d.accept (xs.map state) := by
  induction positions generalizing d with
  | nil => rfl
  | cons i positions ih =>
      rw [acceptEach, List.foldlM_cons, List.mapM_cons]
      cases hx : slot i with
      | error violation => rfl
      | ok x =>
          obtain ⟨e, he⟩ : ∃ e, d.step (state x) = .ok e := by
            obtain ⟨_, single⟩ := accepts [x]
            obtain ⟨e, he, -⟩ := bind_eq_ok.1 single
            exact ⟨e, he⟩
          have later : ∀ xs : List Slot,
              d.accept ((x :: xs).map state) = e.accept (xs.map state) := by
            intro xs
            rw [List.map_cons, accept_cons, he]
            rfl
          have tail := ih fun xs => later xs ▸ accepts (x :: xs)
          simp only [acceptEach] at tail
          simp only [bind, Except.bind, he] at tail ⊢
          rw [tail]
          cases positions.mapM slot with
          | error violation => rfl
          | ok xs => exact (later xs).symm

/-- Required formals are accepted as long as nothing that follows them has been stated. -/
theorem acceptEach_required {d : Draft} (order : d.optional = [] ∧ d.rest = none)
    (slot : Nat → Except Violation Slot) (positions : List Nat) :
    d.acceptEach .required slot positions =
      positions.mapM slot >>= fun xs => .ok { d with required := d.required ++ xs } := by
  rw [acceptEach_eq fun xs => ⟨_, d.accept_required xs order⟩]
  exact bind_congr fun xs => d.accept_required xs order

/-- Optional formals are accepted as long as the rest formal has not been stated. -/
theorem acceptEach_optional {d : Draft} (order : d.rest = none)
    (slot : Nat → Except Violation Slot) (positions : List Nat) :
    d.acceptEach .optional slot positions =
      positions.mapM slot >>= fun xs => .ok { d with optional := d.optional ++ xs } := by
  rw [acceptEach_eq fun xs => ⟨_, d.accept_optional xs order⟩]
  exact bind_congr fun xs => d.accept_optional xs order

/-- All formals may be worked out before any of them is stated, the required ones first. -/
theorem acceptEach_formals (formal : Nat → Except Violation Ty) {count n : Nat} (h : count ≤ n) :
    (acceptEach {} .required (fun i => some <$> formal i) (List.range count) >>= fun d =>
        d.acceptEach .optional (fun i => some <$> formal i) (List.range' count (n - count))) =
      (List.range n).mapM formal >>= fun formals =>
        .ok { required := (formals.take count).map some
              optional := (formals.drop count).map some } := by
  have parts : List.range n = List.range count ++ List.range' count (n - count) := by
    have all := List.range'_append_1 (s := 0) (m := count) (n := n - count)
    rw [Nat.zero_add, Nat.add_sub_cancel' h] at all
    rw [List.range_eq_range', List.range_eq_range', all]
  rw [acceptEach_required ⟨rfl, rfl⟩, parts, List.mapM_append, mapM_map]
  cases first : (List.range count).mapM formal with
  | error violation => rfl
  | ok xs =>
      have length : xs.length = count := by
        simpa using (congrArg List.length (mapM_eq_ok.1 first)).symm
      have optional := acceptEach_optional (d := { required := xs.map some }) rfl
        (fun i => some <$> formal i) (List.range' count (n - count))
      rw [mapM_map] at optional
      cases second : (List.range' count (n - count)).mapM formal with
      | error violation =>
          rw [second] at optional
          exact optional
      | ok ys =>
          rw [second] at optional
          refine optional.trans ?_
          simp only [bind, Except.bind, pure, Except.pure, ← length, List.take_left,
            List.drop_left]
          rfl

/-- No statement of a composed draft is refused, so that all parts may be worked out first. -/
theorem compose_eq {count n : Nat} (h : count ≤ n) (formal : Nat → Except Violation Ty)
    (rest : Option (Except Violation Ty)) (result : Except Violation Ty) (loose : Bool) :
    compose count n (fun i => some <$> formal i) (rest.map (some <$> ·)) (some <$> result) loose =
      (do
        let formals ← (List.range n).mapM formal
        let rest ← rest.elim (.ok none) (some <$> ·)
        let result ← result
        return {
          required := (formals.take count).map some
          optional := (formals.drop count).map some
          rest
          result := some (some result)
          loose }) := by
  rw [compose, ← bind_assoc, acceptEach_formals formal h]
  cases (List.range n).mapM formal with
  | error violation => rfl
  | ok formals =>
      cases rest with
      | none =>
          cases result with
          | error violation => rfl
          | ok result => cases loose <;> rfl
      | some rest =>
          cases rest with
          | error violation => rfl
          | ok rest =>
              cases result with
              | error violation => rfl
              | ok result => cases loose <;> rfl

end Draft

/-!
### Spelling a shape out
-/

/-- The statements that spell a shape out: its formals in order, the type of further arguments if
    there is one, the result, and that it is loose if it is. -/
def Shape.statements (s : Shape) : List Draft.Step :=
  s.required.map .required ++ s.optional.map .optional
    ++ s.rest.toList.map (fun t => .rest (some t)) ++ [.result s.result]
    ++ (if s.loose then [.loose] else [])

/-- Spelled out from nothing, a shape meets no refusal, and everything spelled out stands in the
    draft. -/
theorem Shape.accept_statements (s : Shape) :
    Draft.accept {} s.statements =
      .ok { required := s.required, optional := s.optional, rest := s.rest,
            result := some s.result, loose := s.loose } := by
  obtain ⟨required, optional, rest, result, owner, captures, loose⟩ := s
  simp only [Shape.statements, Draft.accept_append,
    Draft.accept_required {} required ⟨rfl, rfl⟩, List.nil_append, bind, Except.bind,
    Draft.accept_optional { required := required } optional rfl]
  cases rest <;> cases loose <;> rfl

end SignatureLattice
