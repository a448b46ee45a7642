import LineShell.Text.Bytes

/-!
# Rights

Nine bits say who may read, write and execute a file: three for its owner, three for its group and
three for all others.  To execute a directory means to go through it.

* `Right`, `Rights` — a single right, and the bits.
* `Rights.ownerMay`, `Rights.anyoneMay` — who has a right.
* `RightsChange` — what a change does, and to whose bits.
* **`Rights.ofText?`** — the rights that a text asks for, in octal digits or as changes.
-/

namespace LineShell

/-- What can be done with a file. -/
inductive Right where
  | read
  | write
  | execute
  deriving DecidableEq, Repr

/-- The bits of a file; those above the lowest nine give no right. -/
structure Rights where
  bits : Nat
  deriving DecidableEq, Repr

/-- The bit that gives a right to those who are neither the owner nor of the group. -/
def Right.bit : Right → Nat
  | .read => 0o4
  | .write => 0o2
  | .execute => 0o1

namespace Rights

def everything : Nat := 0o777

/-- The bits that a program keeps back unless it is asked for them. -/
def keptBack : Nat := 0o022

def newFile : Rights := ⟨0o644⟩

def newDirectory : Rights := ⟨0o755⟩

def ownerMay (rights : Rights) (r : Right) : Bool :=
  rights.bits &&& (r.bit * 0o100) != 0

def anyoneMay (rights : Rights) (r : Right) : Bool :=
  rights.bits &&& (r.bit * 0o111) != 0

theorem newDirectory_ownerMay (r : Right) : newDirectory.ownerMay r = true := by
  cases r <;> decide

end Rights

/-! ## Rights as text -/

/-- Rights in digits to base eight, at most four of which count. -/
def Rights.ofOctal? (text : Bytes) : Option Rights :=
  let digits := text.dropWhile (· == 0x30)
  if !text.isEmpty && text.all (Bytes.isDigit 8) && digits.length ≤ 4 then
    some ⟨digits.foldl (fun n b => 8 * n + (b.toNat - 0x30)) 0⟩
  else none

/-- What a change does with the bits that it names. -/
inductive RightsSign where
  | add
  | take
  /-- These bits and no others. -/
  | set
  deriving DecidableEq, Repr

/-- The bits that a change names. -/
inductive RightsSource where
  | given (bits : Nat)
  /-- The rights that some of the bits give now, for everyone. -/
  | copied (bits : Nat)
  deriving DecidableEq, Repr

/-- A change of rights: what is done with which bits, and for whom. -/
structure RightsChange where
  /-- The bits that may change; none where nobody is named. -/
  concerned : Option Nat
  sign : RightsSign
  source : RightsSource
  deriving DecidableEq, Repr

namespace RightsSign

def ofByte? (b : UInt8) : Option RightsSign :=
  if b = 0x2B then some add else if b = 0x2D then some take else if b = 0x3D then some set else none

end RightsSign

namespace RightsChange

/-- The bits of those that a byte names. -/
def partyBits? (b : UInt8) : Option Nat :=
  [(0x75, 0o700), (0x67, 0o070), (0x6F, 0o007)].lookup b

/-- The bits of the right that a byte names, for everyone.  Two letters stand for bits that give no
right. -/
def rightBits? (b : UInt8) : Option Nat :=
  [(0x72, 0o444), (0x77, 0o222), (0x78, 0o111), (0x58, 0o111), (0x73, 0), (0x74, 0)].lookup b

def union (l : List Nat) : Nat :=
  l.foldl (· ||| ·) 0

/-- The rights that some of the bits give, for everyone. -/
def spread (bits : Nat) : Nat :=
  union ([0o444, 0o222, 0o111].filter (bits &&& · != 0))

/-- The bits after a change of a directory.  Where nobody is named, everyone is, but some bits are
kept back. -/
def apply (bits : Nat) (c : RightsChange) : Nat :=
  let named := match c.source with
    | .given named => named
    | .copied named => spread (bits &&& named)
  let changed := named &&& c.concerned.getD (Rights.everything ^^^ Rights.keptBack)
  match c.sign with
  | .add => bits ||| changed
  | .take => bits &&& (Rights.everything ^^^ changed)
  | .set => (bits &&& (Rights.everything ^^^ c.concerned.getD Rights.everything)) ||| changed

/-- Cuts a text at its signs: what stands in front of the first, and the signs with what follows
each of them. -/
def cut : Bytes → Bytes × List (RightsSign × Bytes)
  | [] => ([], [])
  | b :: bs =>
    let (front, signed) := cut bs
    match RightsSign.ofByte? b with
    | some sign => ([], (sign, front) :: signed)
    | none => (b :: front, signed)

/-- What a change names, in letters: one of the parties, or any rights. -/
def sourceOfLetters? (text : Bytes) : Option RightsSource :=
  match text with
  | [b] =>
    match partyBits? b with
    | some bits => some (.copied bits)
    | none => (rightBits? b).map .given
  | _ => (text.mapM rightBits?).map fun l => .given (union l)

/-- The changes behind the names of those concerned.  Where nobody is named, the last of them may
be a number, which concerns everyone. -/
def ofSigned? (concerned : Option Nat) :
    List (RightsSign × Bytes) → Option (List RightsChange)
  | [] => some []
  | (sign, text) :: rest =>
    match if concerned = none ∧ rest = [] then Rights.ofOctal? text else none with
    | some rights =>
      some [⟨some Rights.everything, sign, .given (rights.bits &&& Rights.everything)⟩]
    | none =>
      match sourceOfLetters? text, ofSigned? concerned rest with
      | some source, some changes => some (⟨concerned, sign, source⟩ :: changes)
      | _, _ => none

/-- The changes that a text asks for, which stands between commas: who is concerned, and at least
one change. -/
def ofClause? (clause : Bytes) : Option (List RightsChange) :=
  let (front, signed) := cut clause
  let party? (b : UInt8) := if b = 0x61 then some Rights.everything else partyBits? b
  if signed = [] then none
  else (front.mapM party?).bind fun parties =>
    ofSigned? (if parties = [] then none else some (union parties)) signed

end RightsChange

/-- **The rights that a text asks for** a new directory: a number, or changes to the rights of
everyone. -/
def Rights.ofText? (text : Bytes) : Option Rights :=
  match Rights.ofOctal? text with
  | some rights => some rights
  | none =>
    ((text.splitOn 0x2C).mapM RightsChange.ofClause?).map fun changes =>
      ⟨changes.flatten.foldl RightsChange.apply Rights.everything⟩

end LineShell
