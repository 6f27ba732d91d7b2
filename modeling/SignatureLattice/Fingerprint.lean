/-
Module: SignatureLattice.Fingerprint
Purpose: Fingerprints of types and signatures, 64-bit words that equal trees share. A fingerprint
  depends on the word that each class is known by, so it is fixed only where no class occurs.
Main exports: mix, Ty.fingerprint, Signature.fingerprint, Ty.fixedFingerprint?,
  Signature.fixedFingerprint?
-/
import SignatureLattice.Nesting

namespace SignatureLattice

/-- Stirs a word into a running fingerprint. Both are words of 64 bits and sums wrap around. -/
def mix (seed word : UInt64) : UInt64 :=
  seed ^^^ (word + 0x9e3779b97f4a7c15 + (seed <<< (6 : UInt64)) + (seed >>> (2 : UInt64)))

mutual

/-- The fingerprint of a type: its code, into which the words of its classes and the fingerprint of
    its callable part are stirred. -/
def Ty.fingerprint (word : NamedClass → UInt64) (t : Ty) : UInt64 :=
  match t with
  | .top => Ty.top.weight.toUInt64
  | .unknown => Ty.unknown.weight.toUInt64
  | .union p classes callable =>
      Callable.fingerprint word ((classes.map word).foldl mix p.weight.toUInt64) callable
termination_by structural t

/-- Stirs the fingerprint of a callable part into a running fingerprint, if there is one. -/
def Callable.fingerprint (word : NamedClass → UInt64) (seed : UInt64) (callable : Callable) :
    UInt64 :=
  match callable with
  | none => seed
  | some f => mix seed (f.fingerprint word)
termination_by structural callable

/-- The fingerprint of a signature. Both top sentinels have the same one. -/
def Signature.fingerprint (word : NamedClass → UInt64) (f : Signature) : UInt64 :=
  match f with
  | .top _ => 0x70f
  | .shaped s => s.fingerprint word
termination_by structural f

/-- The fingerprint of a shape: the number of required formals, into which the required formals,
    the number of optional formals, the optional formals, the type of further arguments and the
    declared result are stirred. -/
def Shape.fingerprint (word : NamedClass → UInt64) (s : Shape) : UInt64 :=
  match s with
  | ⟨required, optional, rest, result, _, _, _⟩ =>
      let seed := Slot.fingerprints word required.length.toUInt64 required
      let seed := Slot.fingerprints word (mix seed optional.length.toUInt64) optional
      mix (mix seed (Slot.fingerprint word rest)) (Slot.fingerprint word result)
termination_by structural s

/-- Stirs the fingerprints of slots into a running fingerprint, from left to right. -/
def Slot.fingerprints (word : NamedClass → UInt64) (seed : UInt64) (slots : List Slot) : UInt64 :=
  match slots with
  | [] => seed
  | x :: xs => Slot.fingerprints word (mix seed (Slot.fingerprint word x)) xs
termination_by structural slots

/-- The fingerprint of a slot. An absent type counts as zero. -/
def Slot.fingerprint (word : NamedClass → UInt64) (x : Slot) : UInt64 :=
  match x with
  | none => 0
  | some t => t.fingerprint word
termination_by structural x

end

/-- The fingerprint of a type in which no class occurs, and `none` for any other type. -/
def Ty.fixedFingerprint? (t : Ty) : Option UInt64 :=
  if t.isClassFree then some (t.fingerprint fun _ => 0) else none

/-- The fingerprint of a signature in which no class occurs, and `none` for any other signature. -/
def Signature.fixedFingerprint? (f : Signature) : Option UInt64 :=
  if f.isClassFree then some (f.fingerprint fun _ => 0) else none

end SignatureLattice
