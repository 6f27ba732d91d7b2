/-
Module: SignatureLattice.Bindings
Purpose: Finite maps from names, listed in the order of the names. Binding a name again replaces
  what it was bound to, so the last binding of a name counts.
Main exports: Bindings, Bindings.insert, Bindings.ofList, Bindings.Sorted, Bindings.sorted_ofList,
  Bindings.ofList_of_sorted
-/

namespace SignatureLattice

/-- A finite map from names, listed in the order of the names. -/
abbrev Bindings (α : Type) := List (String × α)

namespace Bindings

variable {α : Type}

/-- Binds a name, in place of its former binding if it has one. -/
def insert (bindings : Bindings α) (name : String) (value : α) : Bindings α :=
  match bindings with
  | [] => [(name, value)]
  | (other, held) :: rest =>
      if name = other then (name, value) :: rest
      else if name < other then (name, value) :: (other, held) :: rest
      else (other, held) :: insert rest name value

/-- The bindings of a list of pairs, made from left to right. -/
def ofList (pairs : List (String × α)) : Bindings α :=
  pairs.foldl (fun bindings pair => bindings.insert pair.1 pair.2) []

theorem mem_of_mem_insert {bindings : Bindings α} {name : String} {value : α} {pair : String × α}
    (h : pair ∈ insert bindings name value) : pair = (name, value) ∨ pair ∈ bindings := by
  induction bindings with
  | nil => exact .inl (List.mem_singleton.1 h)
  | cons held rest ih =>
      unfold insert at h
      split at h
      · exact (List.mem_cons.1 h).imp_right (List.mem_cons_of_mem _)
      · split at h
        · exact List.mem_cons.1 h
        · rcases List.mem_cons.1 h with rfl | h
          · exact .inr (List.mem_cons_self ..)
          · exact (ih h).imp_right (List.mem_cons_of_mem _)

/-- Every binding of a list of pairs is one of the pairs. -/
theorem mem_of_mem_ofList {pairs : List (String × α)} {pair : String × α}
    (h : pair ∈ ofList pairs) : pair ∈ pairs := by
  suffices start : ∀ bindings : Bindings α,
      pair ∈ pairs.foldl (fun bindings pair => bindings.insert pair.1 pair.2) bindings →
        pair ∈ bindings ∨ pair ∈ pairs from (start [] h).resolve_left List.not_mem_nil
  clear h
  induction pairs with
  | nil => exact fun _ h => .inl h
  | cons first rest ih =>
      intro bindings h
      rcases ih _ h with h | h
      · exact (mem_of_mem_insert h).elim (fun eq => .inr (eq ▸ List.mem_cons_self ..)) .inl
      · exact .inr (List.mem_cons_of_mem _ h)

theorem lookup_cons (bindings : Bindings α) (name other : String) (value : α) :
    List.lookup other ((name, value) :: bindings) =
      if other = name then some value else bindings.lookup other := by
  by_cases h : other = name
  · subst h; simp
  · rw [List.lookup_cons, beq_false_of_ne h, if_neg h]

/-- Looking a name up sees the last value that the name was bound to. -/
theorem lookup_insert (bindings : Bindings α) (name other : String) (value : α) :
    (insert bindings name value).lookup other =
      if other = name then some value else bindings.lookup other := by
  induction bindings with
  | nil => rw [insert, lookup_cons]
  | cons pair rest ih =>
      obtain ⟨key, held⟩ := pair
      unfold insert
      split
      · rename_i h; subst h
        simp only [lookup_cons]
        split <;> rfl
      · split
        · rw [lookup_cons]
        · rename_i hne _
          rw [lookup_cons, lookup_cons, ih]
          by_cases h : other = key
          · subst h; simp [Ne.symm hne]
          · simp [h]

/-!
### The order of names
-/

/-- A list of bindings is sorted when its names are strictly increasing, so that no name is bound
    twice. -/
def Sorted (bindings : Bindings α) : Prop :=
  bindings.Pairwise fun pair next => pair.1 < next.1

theorem sorted_insert {bindings : Bindings α} (h : bindings.Sorted) (name : String) (value : α) :
    (bindings.insert name value).Sorted := by
  induction bindings with
  | nil => exact List.pairwise_singleton _ _
  | cons pair rest ih =>
      obtain ⟨other, held⟩ := pair
      have head : ∀ next ∈ rest, other < next.1 := (List.pairwise_cons.1 h).1
      have tail : Sorted rest := (List.pairwise_cons.1 h).2
      unfold insert
      split
      · rename_i same
        subst same
        exact List.pairwise_cons.2 ⟨head, tail⟩
      · rename_i different
        split
        · rename_i first
          apply List.pairwise_cons.2 ⟨fun next member => ?_, h⟩
          rcases List.mem_cons.1 member with rfl | member
          · exact first
          · exact String.lt_trans first (head next member)
        · rename_i later
          have after : other < name := Decidable.byContradiction fun before =>
            different (String.le_antisymm before later)
          apply List.pairwise_cons.2 ⟨fun next member => ?_, ih tail⟩
          rcases mem_of_mem_insert member with rfl | member
          · exact after
          · exact head next member

/-- Bindings are listed in the order of the names, whatever the order of the pairs. -/
theorem sorted_ofList (pairs : List (String × α)) : (ofList pairs).Sorted := by
  suffices start : ∀ bindings : Bindings α, bindings.Sorted →
      (pairs.foldl (fun bindings pair => bindings.insert pair.1 pair.2) bindings).Sorted from
    start [] List.Pairwise.nil
  induction pairs with
  | nil => exact fun _ h => h
  | cons pair rest ih => exact fun _ h => ih _ (sorted_insert h pair.1 pair.2)

/-- A name that comes after all others is bound at the end. -/
theorem insert_of_last {bindings : Bindings α} {name : String}
    (h : ∀ pair ∈ bindings, pair.1 < name) (value : α) :
    bindings.insert name value = bindings ++ [(name, value)] := by
  induction bindings with
  | nil => rfl
  | cons pair rest ih =>
      have before : pair.1 < name := h pair (List.mem_cons_self ..)
      have different : name ≠ pair.1 := fun same => String.lt_irrefl name (same ▸ before)
      have later : ¬ name < pair.1 := fun first => String.lt_irrefl _ (String.lt_trans before first)
      rw [insert, if_neg different, if_neg later, ih fun next member =>
        h next (List.mem_cons_of_mem pair member)]
      rfl

/-- Sorted bindings are the bindings of their own pairs. -/
theorem ofList_of_sorted {bindings : Bindings α} (h : bindings.Sorted) :
    ofList bindings = bindings := by
  suffices start : ∀ made : Bindings α, (made ++ bindings).Sorted →
      bindings.foldl (fun bindings pair => bindings.insert pair.1 pair.2) made =
        made ++ bindings from
    start [] h
  clear h
  induction bindings with
  | nil => exact fun made _ => (List.append_nil made).symm
  | cons pair rest ih =>
      intro made sorted
      have last : ∀ next ∈ made, next.1 < pair.1 := fun next member =>
        (List.pairwise_append.1 sorted).2.2 next member pair (List.mem_cons_self ..)
      rw [List.foldl_cons, insert_of_last last, ih, List.append_assoc, List.singleton_append]
      rwa [List.append_assoc, List.singleton_append]

end Bindings

end SignatureLattice
