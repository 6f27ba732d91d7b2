/-
Module: SignatureLattice.Proofs.Representation
Purpose: What is true of the representation of every type and signature that a session makes,
  whatever was absent in the signatures it built: types are laid out legally, class sets are
  canonical and signatures are stripped, at every depth and in captured variables too. Each
  operation keeps this, hence so does each request, hence so does every session.
Main exports: Ty.WellFormed, Signature.WellFormed, Inherited.wellFormedness, Draft.mem_held_of_step,
  Session.WellFormed, Session.wellFormed_step, Session.wellFormed_run, run_wellFormed
-/
import Mathlib
import SignatureLattice.Proofs.Layouts
import SignatureLattice.Proofs.Regularity
import SignatureLattice.Session

namespace SignatureLattice

open Outcome

/-- What a signature assumes of captured variables. -/
def Signature.assumed : Signature → List Slot
  | .top _ => []
  | .shaped s => s.captures.map Prod.snd

/-- A type is well-formed when it and all that is nested in it is laid out legally, with canonical
    class sets, when all its signatures are stripped, and when what they assume of captured
    variables is well-formed again. -/
inductive Ty.WellFormed : Ty → Prop
  | intro {t : Ty} (legal : ∀ u ∈ t.parts, u.layout.Legal)
      (canonical : ∀ u ∈ t.parts, u.classes.Canonical) (stripped : ∀ f ∈ t.nested, f.Stripped)
      (assumed : ∀ f ∈ t.nested, ∀ u, some u ∈ f.assumed → u.WellFormed) : t.WellFormed

/-- A signature is well-formed when the type of its functions is. -/
abbrev Signature.WellFormed (f : Signature) : Prop :=
  (Ty.callableOf f).WellFormed

abbrev Slot.WellFormed (x : Slot) : Prop :=
  ∀ t, x = some t → t.WellFormed

abbrev Callable.WellFormed (f : Callable) : Prop :=
  ∀ g, f = some g → g.WellFormed

/-- In a canonical list no class is listed twice. -/
theorem ClassSet.Canonical.nodup {c : ClassSet} (h : c.Canonical) : c.Nodup := by
  apply List.Pairwise.imp _ h
  rintro a _ lt rfl
  exact a.lt_irrefl lt

/-!
### Well-formedness is hereditary
-/

/-- What well-formedness asks of a single signature. -/
def Signature.Kept (f : Signature) : Prop :=
  f.Stripped ∧ ∀ u, some u ∈ f.assumed → u.WellFormed

theorem Ty.wellFormed_iff {t : Ty} :
    t.WellFormed ↔ t.All ClassSet.Canonical Signature.Kept := by
  constructor
  · rintro ⟨-, canonical, stripped, assumed⟩
    exact ⟨canonical, fun f hf => ⟨stripped f hf, assumed f hf⟩⟩
  · rintro ⟨canonical, kept⟩
    exact ⟨fun u _ => Layout.legal_iff.2 ⟨u, rfl⟩, canonical, fun f hf => (kept f hf).1,
      fun f hf => (kept f hf).2⟩

theorem Signature.wellFormed_iff {f : Signature} :
    f.WellFormed ↔ f.All ClassSet.Canonical Signature.Kept :=
  Ty.wellFormed_iff.trans (Ty.all_callableOf ClassSet.canonical_nil)

theorem Ty.wellFormed_of_plain (p : Primitives) {c : ClassSet} (h : c.Canonical) :
    (Ty.union p c none).WellFormed :=
  Ty.wellFormed_iff.2 (Ty.all_union.2 ⟨h, by simp⟩)

theorem Ty.wellFormed_instanceOf (c : NamedClass) : (Ty.instanceOf c).WellFormed :=
  Ty.wellFormed_of_plain {} (ClassSet.canonical_singleton c)

theorem Constant.wellFormed (c : Constant) : c.ty.WellFormed := by
  cases c
  case top => exact Ty.wellFormed_iff.2 (Ty.all_top ClassSet.canonical_nil)
  case unknown => exact Ty.wellFormed_iff.2 (Ty.all_unknown ClassSet.canonical_nil)
  all_goals exact Ty.wellFormed_of_plain _ ClassSet.canonical_nil

theorem Signature.wellFormed_top (loose : Bool) : (Signature.top loose).WellFormed :=
  Signature.wellFormed_iff.2
    (Signature.all_iff.2 ⟨⟨trivial, by simp [Signature.assumed]⟩, by simp⟩)

/-- Everything that stands in a shape, captured variables included. -/
def Shape.held (s : Shape) : List Slot :=
  s.slots ++ s.captures.map Prod.snd

/-- What a signature is built of is all that matters, since what is built is normalized. -/
theorem Shape.wellFormed_normalized {s : Shape} (h : ∀ x ∈ s.held, Slot.WellFormed x) :
    (Signature.shaped s.normalized).WellFormed := by
  obtain ⟨slots, captures⟩ := List.forall_mem_append.1 h
  have assumed : (Signature.shaped s.normalized).assumed = s.captures.map Prod.snd := by
    obtain ⟨optional, -, eq⟩ := s.normalized_eq
    rw [eq]
    rfl
  refine Signature.wellFormed_iff.2 (Signature.all_iff.2 ⟨⟨s.normalized_stripped, ?_⟩, ?_⟩)
  · rw [assumed]
    exact fun u hu => captures _ hu u rfl
  · exact fun t ht => Ty.wellFormed_iff.1 (slots _ (Shape.mem_slots_of_normalized ht) t rfl)

theorem Signature.wellFormed_bottom : Signature.bottom.WellFormed := by
  apply Shape.wellFormed_normalized (s := .bottom)
  intro x hx t eq
  obtain rfl | rfl : t = .top ∨ t = .bottom := by
    simpa [Shape.held, Shape.slots, Shape.bottom, eq] using hx
  · exact Constant.wellFormed .top
  · exact Constant.wellFormed .bottom

namespace Signature.WellFormed

variable {f : Signature}

theorem slot (h : f.WellFormed) {x : Slot} (hx : x ∈ f.slots) : Slot.WellFormed x :=
  fun _ eq => Ty.wellFormed_iff.2 ((Signature.wellFormed_iff.1 h).slot (eq ▸ hx))

theorem assumed (h : f.WellFormed) {x : Slot} (hx : x ∈ f.assumed) : Slot.WellFormed x :=
  fun u eq => (Signature.wellFormed_iff.1 h).own.2 u (eq ▸ hx)

theorem loosen (h : f.WellFormed) : f.loosen.WellFormed := by
  cases f with
  | top loose => exact Signature.wellFormed_top true
  | shaped s =>
      have all := Signature.all_iff.1 (Signature.wellFormed_iff.1 h)
      exact Signature.wellFormed_iff.2 (Signature.all_iff.2 all)

end Signature.WellFormed

theorem Ty.WellFormed.callable {t : Ty} (h : t.WellFormed) : Callable.WellFormed t.callable? := by
  intro f eq
  cases t with
  | top => exact nomatch eq
  | unknown => exact nomatch eq
  | union p c callable =>
      exact Signature.wellFormed_iff.2 ((Ty.all_union.1 (Ty.wellFormed_iff.1 h)).2 f eq)

/-!
### Operations

A merge assumes nothing of captured variables, so for bounds only the merged slots count.
-/

/-- Well-formedness is inherited by bounds. -/
theorem Inherited.wellFormedness : Inherited ClassSet.Canonical Signature.Kept where
  union := Inherited.regularity.union
  inter := Inherited.regularity.inter
  top still kept := ⟨trivial, by simp [Signature.assumed]⟩
  merge {bound s t u} hs ht h := by
    refine ⟨Inherited.regularity.merge hs.1 ht.1 h, ?_⟩
    obtain ⟨-, captures, -⟩ := Shape.plain_of_merge h
    simp [Signature.assumed, captures]

theorem Slot.wellFormed_of_combine {bound : Bound} {x y : Slot} {z : Ty}
    (hx : Slot.WellFormed x) (hy : Slot.WellFormed y) (h : Slot.combine bound x y = .ok z) :
    z.WellFormed := by
  obtain ⟨w, hw, eq⟩ := bind_eq_ok.1 h
  obtain ⟨a, b, rfl, rfl, hab⟩ := Slot.both_cases (Slot.require_eq_ok.1 eq ▸ hw)
  exact Ty.wellFormed_iff.2 (Ty.all_of_combine .wellFormedness
    (Ty.wellFormed_iff.1 (hx a rfl)) (Ty.wellFormed_iff.1 (hy b rfl)) hab)

theorem Callable.wellFormed_of_combine {bound : Bound} {f g u : Callable}
    (hf : Callable.WellFormed f) (hg : Callable.WellFormed g)
    (h : Callable.combine bound f g = .ok u) : Callable.WellFormed u := by
  rcases Callable.combine_cases h with rfl | rfl | rfl | ⟨f, g, u, rfl, rfl, rfl, hu⟩
  · exact fun _ eq => nomatch eq
  · exact hf
  · exact hg
  · have left := Signature.wellFormed_iff.1 (hf f rfl)
    have right := Signature.wellFormed_iff.1 (hg g rfl)
    rintro _ ⟨⟩
    exact Signature.wellFormed_iff.2 (Signature.all_of_combine .wellFormedness left right hu)

theorem Signature.wellFormed_of_specialize {f : Signature} {observed u : Callable}
    (hf : f.WellFormed) (hg : Callable.WellFormed observed)
    (h : f.specialize observed = .ok u) : Callable.WellFormed u := by
  have some_f : Callable.WellFormed (some f) := fun _ eq => Option.some.inj eq ▸ hf
  rcases Signature.specialize_cases h with rfl | rfl | met
  · exact fun _ eq => nomatch eq
  · exact some_f
  · exact Callable.wellFormed_of_combine some_f hg met

theorem Callable.toTy_eq_ok {f : Callable} {t : Ty} :
    f.toTy = .ok t ↔ ∃ g, f = some g ∧ .callableOf g = t := by
  cases f <;> simp [Callable.toTy]

theorem NamedClass.wellFormed_of_constructorValue {c : NamedClass} {f : Callable} {t : Ty}
    (hf : Callable.WellFormed f) (h : c.constructorValue f = .ok t) : t.WellFormed := by
  cases f with
  | none => exact nomatch h
  | some f =>
      rw [NamedClass.constructorValue] at h
      split at h
      · exact Except.ok.inj h ▸ hf f rfl
      · exact nomatch h

theorem Signature.wellFormed_of_constructorValue {f : Signature} {t : Ty} (hf : f.WellFormed)
    (h : f.constructorValue = .ok t) : t.WellFormed := by
  rw [Signature.constructorValue] at h
  split at h
  · exact NamedClass.wellFormed_of_constructorValue (fun _ eq => Option.some.inj eq ▸ hf) h
  · exact nomatch h

/-!
### Questions

The answers stand in the signature or are the type of the class that it constructs.
-/

theorem Signature.shape_eq_ok {query : Query} {f : Signature} {s : Shape} :
    f.shape query = .ok s ↔ f = .shaped s := by
  cases f <;> simp [Signature.shape]

/-- A question about the shape is answered by the shape that is there. -/
theorem Signature.map_shape_eq_ok {α : Type} {query : Query} {f : Signature} {view : Shape → α}
    {a : α} : view <$> f.shape query = .ok a ↔ ∃ s, f = .shaped s ∧ view s = a := by
  simp only [map_eq_ok, Signature.shape_eq_ok]

theorem Question.wellFormed_of_ask {f : Signature} {question : Question} {x : Slot}
    (hf : f.WellFormed) (answer : question.ask f = .ok x) : Slot.WellFormed x := by
  have listed : ∀ {l : List Slot} {i : Nat}, (∀ y ∈ l, y ∈ f.slots) →
      Slot.WellFormed (l[i]?.join) := by
    intro l i sub t eq
    have present : some t ∈ l := List.mem_of_getElem? (Option.join_eq_some_iff.1 eq)
    exact hf.slot (sub _ present) t rfl
  cases question with
  | formalAt i =>
      obtain ⟨s, shaped, checked⟩ := bind_eq_ok.1 answer
      obtain rfl := Signature.shape_eq_ok.1 shaped
      obtain ⟨-, -, demanded⟩ := bind_eq_ok.1 checked
      exact Except.ok.inj demanded ▸ hf.slot (s.formalAt?_mem_slots i)
  | required i =>
      obtain ⟨l, formals, rfl⟩ := map_eq_ok.1 answer
      obtain ⟨s, rfl, rfl⟩ := Signature.map_shape_eq_ok.1 formals
      exact listed fun y hy => Shape.mem_slots.2 (.inl (List.mem_append_left _ hy))
  | optional i =>
      obtain ⟨l, formals, rfl⟩ := map_eq_ok.1 answer
      obtain ⟨s, rfl, rfl⟩ := Signature.map_shape_eq_ok.1 formals
      exact listed fun y hy => Shape.mem_slots.2 (.inl (List.mem_append_right _ hy))
  | rest =>
      obtain ⟨s, rfl, rfl⟩ := Signature.map_shape_eq_ok.1 answer
      exact hf.slot s.rest_mem_slots
  | result =>
      obtain ⟨s, rfl, rfl⟩ := Signature.map_shape_eq_ok.1 answer
      exact hf.slot s.result_mem_slots
  | returned =>
      obtain ⟨s, rfl, rfl⟩ := Signature.map_shape_eq_ok.1 answer
      unfold Shape.returned
      split
      · exact fun _ eq => Option.some.inj eq ▸ Ty.wellFormed_instanceOf _
      · exact hf.slot s.result_mem_slots
  | captured name =>
      obtain ⟨s, rfl, rfl⟩ := Signature.map_shape_eq_ok.1 answer
      intro t eq
      obtain ⟨before, after, captures, -⟩ :=
        List.lookup_eq_some_iff.1 (Option.join_eq_some_iff.1 eq)
      have listed : some t ∈ (Signature.shaped s).assumed := by
        simp [Signature.assumed, captures]
      exact hf.assumed listed t rfl
  | thisType =>
      obtain ⟨t, owned, rfl⟩ := map_eq_ok.1 answer
      unfold Signature.thisType at owned
      split at owned
      · obtain rfl := Except.ok.inj owned
        exact fun _ eq => Option.some.inj eq ▸ Ty.wellFormed_instanceOf _
      · cases owned

/-!
### Drafts

A step adds to what stands in a draft at most the slot that it names.
-/

namespace Draft

/-- Everything that stands in a draft, captured variables included. -/
def held (d : Draft) : List Slot :=
  d.required ++ d.optional ++ [d.rest, d.result.join] ++ d.captures.map Prod.snd

/-- The slot that a step names. -/
def Step.slot? : Step → Option Slot
  | .required x => some x
  | .optional x => some x
  | .rest x => some x
  | .result x => some x
  | .capture _ x => some x
  | .owner _ => none
  | .loose => none

theorem mem_held {d : Draft} {x : Slot} :
    x ∈ d.held ↔ x ∈ d.required ∨ x ∈ d.optional ∨ x = d.rest ∨ x = d.result.join ∨
      ∃ name, (name, x) ∈ d.captures := by
  simp [held]

theorem mem_held_of_step {d next : Draft} {a : Step} (h : d.step a = .ok next) {x : Slot}
    (hx : x ∈ next.held) : x ∈ d.held ∨ a.slot? = some x := by
  rw [mem_held] at hx ⊢
  cases a with
  | required y =>
      obtain ⟨-, rfl⟩ := ite_eq_ok.1 h
      simp only [List.mem_append, List.mem_singleton] at hx
      rcases hx with (here | rfl) | others
      · exact .inl (.inl here)
      · exact .inr rfl
      · exact .inl (.inr others)
  | optional y =>
      obtain ⟨-, rfl⟩ := ite_eq_ok.1 h
      simp only [List.mem_append, List.mem_singleton] at hx
      rcases hx with here | (here | rfl) | others
      · exact .inl (.inl here)
      · exact .inl (.inr (.inl here))
      · exact .inr rfl
      · exact .inl (.inr (.inr others))
  | rest y =>
      rw [step] at h
      split at h
      · cases h
      · obtain ⟨-, rfl⟩ := ite_eq_ok.1 h
        rcases hx with here | here | rfl | others
        · exact .inl (.inl here)
        · exact .inl (.inr (.inl here))
        · exact .inr rfl
        · exact .inl (.inr (.inr (.inr others)))
  | result y =>
      obtain ⟨-, rfl⟩ := ite_eq_ok.1 h
      rcases hx with here | here | here | rfl | others
      · exact .inl (.inl here)
      · exact .inl (.inr (.inl here))
      · exact .inl (.inr (.inr (.inl here)))
      · exact .inr rfl
      · exact .inl (.inr (.inr (.inr (.inr others))))
  | owner c =>
      obtain rfl := Except.ok.inj h
      exact .inl hx
  | capture name y =>
      obtain rfl := Except.ok.inj h
      have listed : (∃ other, (other, x) ∈ d.captures.insert name y) →
          (∃ other, (other, x) ∈ d.captures) ∨ y = x := by
        rintro ⟨other, binding⟩
        rcases Bindings.mem_of_mem_insert binding with eq | binding
        · exact .inr (Prod.mk.inj eq).2.symm
        · exact .inl ⟨other, binding⟩
      simp only [Step.slot?, Option.some.injEq]
      tauto
  | loose =>
      obtain rfl := Except.ok.inj h
      exact .inl hx

theorem wellFormed_build {d : Draft} (h : ∀ x ∈ d.held, Slot.WellFormed x) :
    (Signature.shaped d.build).WellFormed :=
  Shape.wellFormed_normalized h

end Draft

theorem Statement.slot?_step {slot : Register → Slot} {statement : Statement} {x : Slot}
    (h : (statement.step slot).slot? = some x) : ∃ r, slot r = x := by
  cases statement with
  | required r => exact ⟨r, Option.some.inj h⟩
  | optional r => exact ⟨r, Option.some.inj h⟩
  | rest r => exact ⟨r, Option.some.inj h⟩
  | result r => exact ⟨r, Option.some.inj h⟩
  | capture name r => exact ⟨r, Option.some.inj h⟩
  | owner c => exact nomatch h
  | loose => exact nomatch h

/-!
### Sessions
-/

namespace Session

/-- A session is well-formed when all types and signatures that it has made are, and so is all that
    stands in its drafts. -/
structure WellFormed (s : Session) : Prop where
  types : ∀ x ∈ s.types, Slot.WellFormed x
  signatures : ∀ f ∈ s.signatures, Callable.WellFormed f
  drafts : ∀ d ∈ s.drafts, ∀ x ∈ d.held, Slot.WellFormed x

namespace WellFormed

variable {s : Session}

theorem slot (h : s.WellFormed) (x : Register) : Slot.WellFormed (s.slot x) :=
  fun t eq => h.types (some t) (List.mem_of_getElem? (Option.join_eq_some_iff.1 eq)) t rfl

theorem callable (h : s.WellFormed) (f : Register) : Callable.WellFormed (s.callable f) :=
  fun g eq => h.signatures (some g) (List.mem_of_getElem? (Option.join_eq_some_iff.1 eq)) g rfl

theorem signature (h : s.WellFormed) {f : Register} {g : Signature} (hg : s.signature f = .ok g) :
    g.WellFormed := by
  unfold Session.signature at hg
  split at hg
  · rename_i present
    exact Except.ok.inj hg ▸ h.callable f _ present
  · exact nomatch hg

theorem draft (h : s.WellFormed) (d : Register) : ∀ x ∈ (s.draft d).held, Slot.WellFormed x := by
  unfold Session.draft
  cases here : s.drafts[d]? with
  | none =>
      intro x hx t eq
      simp [Draft.held, eq] at hx
  | some d => exact h.drafts d (List.mem_of_getElem? here)

/-- What is built of the contents of registers is well-formed. -/
theorem normalized (h : s.WellFormed) (required optional : List Register) (rest result : Register)
    (owner : Option NamedClass) (captures : List (String × Register)) (loose : Bool) :
    (Signature.shaped (Shape.normalized {
      required := required.map s.slot
      optional := optional.map s.slot
      rest := s.slot rest
      result := s.slot result
      owner
      captures := Bindings.ofList (captures.map fun capture => (capture.1, s.slot capture.2))
      loose })).WellFormed := by
  apply Shape.wellFormed_normalized
  intro x hx
  suffices read : ∃ r, s.slot r = x by
    obtain ⟨r, rfl⟩ := read
    exact h.slot r
  rcases List.mem_append.1 hx with hx | hx
  · simp only [Shape.mem_slots, List.mem_append, List.mem_map] at hx
    rcases hx with (⟨r, -, eq⟩ | ⟨r, -, eq⟩) | eq | eq
    · exact ⟨r, eq⟩
    · exact ⟨r, eq⟩
    · exact ⟨rest, eq.symm⟩
    · exact ⟨result, eq.symm⟩
  · obtain ⟨binding, hbinding, rfl⟩ := List.mem_map.1 hx
    obtain ⟨capture, -, rfl⟩ := List.mem_map.1 (Bindings.mem_of_mem_ofList hbinding)
    exact ⟨capture.2, rfl⟩

theorem keepType (h : s.WellFormed) {x : Slot} (hx : Slot.WellFormed x) :
    (s.keepType x).WellFormed :=
  { h with types := List.forall_mem_append.2 ⟨h.types, List.forall_mem_singleton.2 hx⟩ }

theorem keepTy (h : s.WellFormed) {t : Ty} (ht : t.WellFormed) : (s.keepType (some t)).WellFormed :=
  h.keepType fun _ eq => Option.some.inj eq ▸ ht

theorem keepCallable (h : s.WellFormed) {f : Callable} (hf : Callable.WellFormed f) :
    (s.keepSignature f).WellFormed :=
  { h with signatures := List.forall_mem_append.2 ⟨h.signatures, List.forall_mem_singleton.2 hf⟩ }

theorem keepSignature (h : s.WellFormed) {f : Signature} (hf : f.WellFormed) :
    (s.keepSignature (some f)).WellFormed :=
  h.keepCallable fun _ eq => Option.some.inj eq ▸ hf

theorem keepDraft (h : s.WellFormed) {d : Draft} (hd : ∀ x ∈ d.held, Slot.WellFormed x) :
    (s.keepDraft d).WellFormed :=
  { h with drafts := List.forall_mem_append.2 ⟨h.drafts, List.forall_mem_singleton.2 hd⟩ }

end WellFormed

/-- Every request that is answered keeps the session well-formed. -/
theorem wellFormed_step {s next : Session} {request : Request} (h : s.WellFormed)
    (answer : s.step request = .ok next) : next.WellFormed := by
  cases request with
  | constant c =>
      obtain rfl := Except.ok.inj answer
      exact h.keepTy c.wellFormed
  | instanceOf c =>
      obtain rfl := Except.ok.inj answer
      exact h.keepTy (Ty.wellFormed_instanceOf c)
  | callableOf f =>
      obtain ⟨t, ht, rfl⟩ := map_eq_ok.1 answer
      obtain ⟨g, hg, rfl⟩ := Callable.toTy_eq_ok.1 ht
      exact h.keepTy (h.callable f g hg)
  | combineTypes bound x y =>
      obtain ⟨t, ht, rfl⟩ := map_eq_ok.1 answer
      exact h.keepTy (Slot.wellFormed_of_combine (h.slot x) (h.slot y) ht)
  | ofFormals required optional rest result =>
      obtain rfl := Except.ok.inj answer
      exact h.keepTy (h.normalized required optional rest result none [] false)
  | constructorOf c f =>
      obtain ⟨t, ht, rfl⟩ := map_eq_ok.1 answer
      exact h.keepTy (NamedClass.wellFormed_of_constructorValue (h.callable f) ht)
  | constructor f =>
      obtain ⟨g, hg, answer⟩ := bind_eq_ok.1 answer
      obtain ⟨t, ht, rfl⟩ := map_eq_ok.1 answer
      exact h.keepTy (Signature.wellFormed_of_constructorValue (h.signature hg) ht)
  | question f question =>
      obtain ⟨g, hg, answer⟩ := bind_eq_ok.1 answer
      obtain ⟨x, hx, rfl⟩ := map_eq_ok.1 answer
      exact h.keepType (Question.wellFormed_of_ask (h.signature hg) hx)
  | top loose =>
      obtain rfl := Except.ok.inj answer
      exact h.keepSignature (Signature.wellFormed_top loose)
  | bottom =>
      obtain rfl := Except.ok.inj answer
      exact h.keepSignature Signature.wellFormed_bottom
  | normalized required optional rest result owner captures loose =>
      obtain rfl := Except.ok.inj answer
      exact h.keepSignature (h.normalized required optional rest result owner captures loose)
  | loosen f =>
      obtain ⟨g, hg, rfl⟩ := map_eq_ok.1 answer
      exact h.keepSignature (h.signature hg).loosen
  | combine bound f g =>
      obtain ⟨u, hu, rfl⟩ := map_eq_ok.1 answer
      exact h.keepCallable (Callable.wellFormed_of_combine (h.callable f) (h.callable g) hu)
  | specialize f g =>
      obtain ⟨e, he, answer⟩ := bind_eq_ok.1 answer
      obtain ⟨u, hu, rfl⟩ := map_eq_ok.1 answer
      exact h.keepCallable
        (Signature.wellFormed_of_specialize (h.signature he) (h.callable g) hu)
  | callablePart x =>
      obtain rfl := Except.ok.inj answer
      apply h.keepCallable
      intro f eq
      obtain ⟨t, ht, hf⟩ := Option.bind_eq_some_iff.1 eq
      exact (h.slot x t ht).callable f hf
  | build d =>
      obtain rfl := Except.ok.inj answer
      exact h.keepSignature (Draft.wellFormed_build (h.draft d))
  | state d statement =>
      obtain ⟨made, hmade, rfl⟩ := map_eq_ok.1 answer
      apply h.keepDraft
      intro x hx
      rcases Draft.mem_held_of_step hmade hx with hx | hx
      · exact h.draft d x hx
      · obtain ⟨r, rfl⟩ := Statement.slot?_step hx
        exact h.slot r

theorem wellFormed_attempt {s : Session} (h : s.WellFormed) (request : Request) :
    (s.attempt request).WellFormed := by
  unfold attempt
  split
  · rename_i answer
    exact wellFormed_step h answer
  · exact h

/-- Every session is well-formed, whatever was requested. -/
theorem wellFormed_run (requests : List Request) : (run requests).WellFormed := by
  suffices from_any : ∀ s : Session, s.WellFormed → (requests.foldl attempt s).WellFormed from
    from_any {} ⟨by simp, by simp, by simp⟩
  induction requests with
  | nil => exact fun _ h => h
  | cons request rest ih => exact fun s h => ih _ (wellFormed_attempt h request)

end Session

/-- Whatever is requested, every type and every signature that is made is well-formed, and none of
    the class lists in it lists a class twice. Bounds of the types that are made can therefore be
    computed on their layouts. -/
theorem run_wellFormed (requests : List Request) :
    (∀ t, some t ∈ (Session.run requests).types →
      t.WellFormed ∧ ∀ u ∈ t.parts, u.classes.Nodup) ∧
    (∀ f, some f ∈ (Session.run requests).signatures →
      f.WellFormed ∧ ∀ u ∈ f.parts, u.classes.Nodup) ∧
    ∀ a b, some a ∈ (Session.run requests).types → some b ∈ (Session.run requests).types →
      ∀ bound, Layout.combine bound a.layout b.layout = Ty.layout <$> Ty.combine bound a b := by
  have session := Session.wellFormed_run requests
  have canonical : ∀ t, some t ∈ (Session.run requests).types →
      ∀ u ∈ t.parts, u.classes.Canonical := fun t ht =>
    (Ty.wellFormed_iff.1 (session.types _ ht t rfl)).1
  refine ⟨fun t ht => ?_, fun f hf => ?_, fun a b ha hb bound => ?_⟩
  · exact ⟨session.types _ ht t rfl, fun u hu => (canonical t ht u hu).nodup⟩
  · have made := session.signatures _ hf f rfl
    exact ⟨made, fun u hu => ((Signature.wellFormed_iff.1 made).1 u hu).nodup⟩
  · exact Ty.layout_combine bound (canonical a ha a a.mem_parts_self)
      (canonical b hb b b.mem_parts_self)

/-- The theorem at a session of which one request fails. It makes a signature with a captured
    variable, which has lost a formal that its further arguments say again, joins it with another
    one and makes a type of two classes and of the functions with the joined signature. -/
theorem run_wellFormed_session :
    let foo : NamedClass := ⟨"Foo", 0⟩
    let bar : NamedClass := ⟨"Bar", 1⟩
    let requests : List Request :=
      [.instanceOf foo, .instanceOf bar, .combineTypes .join 0 1, .combineTypes .meet 0 7,
        .normalized [2] [0, 1] 1 0 (some foo) [("count", 2)] false,
        .normalized [2] [] 1 2 none [] false, .combine .join 0 1, .callableOf 2,
        .combineTypes .join 3 2]
    let made := Session.run requests
    let both : Ty := .union {} [bar, foo] none
    let given : Signature := .shaped
      { required := [some both], optional := [some (.instanceOf foo)],
        rest := some (.instanceOf bar), result := some (.instanceOf foo), owner := some foo,
        captures := [("count", some both)] }
    let joined : Signature := .shaped
      { required := [some both], optional := [some .bottom], rest := some (.instanceOf bar),
        result := some both }
    let whole : Ty := .union {} [bar, foo] (some joined)
    made.types[4]? = some (some whole) ∧ made.signatures[0]? = some (some given) ∧
      (whole.WellFormed ∧ ∀ u ∈ whole.parts, u.classes.Nodup) ∧
      (given.WellFormed ∧ ∀ u ∈ given.parts, u.classes.Nodup) ∧
      Layout.combine .meet whole.layout both.layout =
        Ty.layout <$> Ty.combine .meet whole both := by
  intro foo bar requests made both given joined whole
  have last : made.types[4]? = some (some whole) := by
    simp only [made, requests]
    cbv
  have union : made.types[2]? = some (some both) := by
    simp only [made, requests]
    cbv
  have first : made.signatures[0]? = some (some given) := by
    simp only [made, requests]
    cbv
  obtain ⟨types, signatures, bounds⟩ := run_wellFormed requests
  exact ⟨last, first, types whole (List.mem_of_getElem? last),
    signatures given (List.mem_of_getElem? first),
    bounds whole both (List.mem_of_getElem? last) (List.mem_of_getElem? union) .meet⟩

end SignatureLattice
