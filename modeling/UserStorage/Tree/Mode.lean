/-!
# Permission bits

The nine permission bits of an entry. Every entry of a tree belongs to the one caller there is, so
only the first three, the owner's, decide what is granted; the others are kept and shown. The
bits above the nine (set user, set group, sticky) are left out: no call here asks for one, and a new
directory is taken not to inherit any.

## Main definitions

* `Mode`: nine bits, with `Mode.ownerMayRead`, `Mode.ownerMayWrite`, `Mode.ownerMaySearch`
* `Mode.without`: the bits that a mask leaves of a mode
* `Mode.octal`, `Mode.ofOctal?`: the three octal digits of a mode
-/

namespace UserStorage

/-- The nine permission bits of an entry. -/
structure Mode where
  /-- Three bits each for the owner, the group and the rest: read, write, search. -/
  bits : BitVec 9
  deriving DecidableEq, Repr

namespace Mode

/-- The owner may read the entry. -/
def ownerMayRead (m : Mode) : Bool := m.bits.getLsbD 8

/-- The owner may write the entry, and make and remove entries in it if it is a directory. -/
def ownerMayWrite (m : Mode) : Bool := m.bits.getLsbD 7

/-- The owner may look entries up in the directory. -/
def ownerMaySearch (m : Mode) : Bool := m.bits.getLsbD 6

/-- The bits of a mode that a mask leaves. -/
def without (m mask : Mode) : Mode := ⟨m.bits &&& ~~~mask.bits⟩

/-- All nine bits: what a new directory asks for. -/
def full : Mode := ⟨0o777⟩

/-- A mode as three octal digits. -/
def octal (m : Mode) : String :=
  let n := m.bits.toNat
  String.ofList [Nat.digitChar (n / 64), Nat.digitChar (n / 8 % 8), Nat.digitChar (n % 8)]

/-- The mode of some octal digits; the last nine bits count. -/
def ofOctal? (digits : String) : Option Mode :=
  (digits.toList.foldl (fun acc c => acc.bind fun n =>
    if '0' ≤ c ∧ c ≤ '7' then some (8 * n + (c.toNat - '0'.toNat)) else none) (some 0)).map
      fun n => ⟨BitVec.ofNat 9 n⟩

@[simp] theorem ownerMaySearch_without (m mask : Mode) :
    (m.without mask).ownerMaySearch = (m.ownerMaySearch && !mask.ownerMaySearch) := by
  simp [ownerMaySearch, without]

@[simp] theorem ownerMayWrite_without (m mask : Mode) :
    (m.without mask).ownerMayWrite = (m.ownerMayWrite && !mask.ownerMayWrite) := by
  simp [ownerMayWrite, without]

@[simp] theorem ownerMayRead_without (m mask : Mode) :
    (m.without mask).ownerMayRead = (m.ownerMayRead && !mask.ownerMayRead) := by
  simp [ownerMayRead, without]

end Mode

end UserStorage
