/-
Module: SignatureLattice.NamedClass
Purpose: Classes whose instances are values of a nominal type, and finite sets of such classes.
  A set is a list in canonical order. The operations keep that order, so that two sets with the
  same members are the same list and comparing sets is comparing lists.
Main exports: NamedClass, ClassSet, ClassSet.insert, ClassSet.union, ClassSet.inter,
  ClassSet.Canonical
-/

namespace SignatureLattice

/-- A declared class. Two classes may share a name: the serial number, given in the order of
    declaration, tells them apart. -/
structure NamedClass where
  name : String
  serial : Nat
deriving DecidableEq, Repr, Inhabited

/-- The canonical order of classes: by name, character by character, and by order of declaration
    among classes of one name. -/
instance : LT NamedClass where
  lt a b := a.name < b.name ∨ a.name = b.name ∧ a.serial < b.serial

instance (a b : NamedClass) : Decidable (a < b) :=
  inferInstanceAs (Decidable (a.name < b.name ∨ a.name = b.name ∧ a.serial < b.serial))

/-- A finite set of classes, listed in canonical order. -/
abbrev ClassSet := List NamedClass

namespace ClassSet

/-- A class list is canonical when it is strictly increasing, hence free of duplicates. -/
def Canonical (classes : ClassSet) : Prop :=
  classes.Pairwise (· < ·)

/-- Adds a class at its place in the canonical order, unless it is there already. -/
def insert (c : NamedClass) : ClassSet → ClassSet
  | [] => [c]
  | d :: rest =>
      if c = d then d :: rest
      else if c < d then c :: d :: rest
      else d :: insert c rest

def union (a b : ClassSet) : ClassSet :=
  a.foldr insert b

def inter (a b : ClassSet) : ClassSet :=
  a.filter (· ∈ b)

/-!
### Members

Membership is the view through which the operations are described.
-/

@[simp] theorem mem_insert {c d : NamedClass} {classes : ClassSet} :
    d ∈ insert c classes ↔ d = c ∨ d ∈ classes := by
  induction classes with
  | nil => simp [insert]
  | cons e rest ih =>
      unfold insert
      split
      · rename_i h; subst h; simp
      · split
        · simp
        · simp only [List.mem_cons, ih]
          constructor <;> rintro (h | h | h) <;> simp [h]

@[simp] theorem mem_union {c : NamedClass} {a b : ClassSet} :
    c ∈ union a b ↔ c ∈ a ∨ c ∈ b := by
  induction a with
  | nil => simp [union]
  | cons d rest ih =>
      simp only [union, List.foldr_cons, mem_insert, List.mem_cons]
      rw [← union, ih, or_assoc]

@[simp] theorem mem_inter {c : NamedClass} {a b : ClassSet} :
    c ∈ inter a b ↔ c ∈ a ∧ c ∈ b := by
  simp [inter]

end ClassSet

end SignatureLattice
