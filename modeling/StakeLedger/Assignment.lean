import StakeLedger.Account
import StakeLedger.SortedBy

/-!
# Assignments

Which accounts validate an entity, and which one proposes the block after a block, follows
from the entity's identifier, a tag and the accounts of a snapshot, so that every node finds
the same. With a seed `H(id ‖ tag)` and targets `H(seed ‖ i)` for `i = 1, 2, …`, each target
in turn picks the greatest remaining candidate that is at most the target, or the greatest
of all if there is none. The candidates are the accounts with enough stake.

* `Assigner.assign` makes an assignment, or says why there is none.
-/

namespace StakeLedger

/-- The selected accounts in the order of selection. -/
structure Assignment where
  members : List Identifier
  deriving DecidableEq

namespace Assignment

/-- The assignment without members. -/
def empty : Assignment := ⟨[]⟩

/-- Whether an account is a member. -/
def has (a : Assignment) (id : Identifier) : Bool := a.members.contains id

/-- The assignment with a further member, unless it is one already. -/
def add (a : Assignment) (id : Identifier) : Except LedgerError Assignment :=
  if a.has id then .error (.invalidArgument (.alreadyAssigned id)) else .ok ⟨a.members ++ [id]⟩

/-- The number of members. -/
def size (a : Assignment) : Nat := a.members.length

/-- Whether there is no member. -/
def isEmpty (a : Assignment) : Bool := a.members.isEmpty

instance : Codec Assignment := Codec.via members mk

/-- The fields in order. -/
def fieldNames : List String := ["members"]

instance : JsonForm Assignment where
  toJson a := .ofMembers [("members", toJson a.members)]
  ofJson? j := do
    let [members] ← Json.fields? false fieldNames j | none
    return ⟨← Json.required? members⟩

end Assignment

/-- A finite set of identifiers. -/
abbrev IdentifierSet := SortedBy (fun x : Identifier => x)

/-- How assignments are made: with which digest and from which stake on. -/
structure Assigner where
  hasher : Hasher
  minStake : UInt64

namespace Assigner

/-- The tag of the assignments of validators. -/
def validatorTag : String := "validator"

/-- The tag of the assignments of proposers. -/
def proposerTag : String := "block-proposer"

/-- The seed of an assignment. -/
def seed (a : Assigner) (id : Identifier) (tag : String) : Identifier :=
  a.hasher.digestBytes (id.bytes ++ Utf8.ofString tag)

/-- The target of a round. -/
def target (a : Assigner) (seed : Identifier) (round : Nat) : Identifier :=
  a.hasher.digestBytes (seed.bytes ++ Bytes.bigEndian 8 round)

/-- The identifiers of the accounts with enough stake. -/
def candidates (a : Assigner) (accounts : List Account) : IdentifierSet :=
  .ofList ((accounts.filter (·.isStakeEligible a.minStake)).map Account.identifier)

/-- The candidate that a target picks. -/
def pick? (target : Identifier) (pool : IdentifierSet) : Option Identifier :=
  (pool.items.filter (·.le target)).getLast?.or pool.items.getLast?

/-- The assignment extended by the picks of the given number of rounds, of `requested` in
all, the first of them numbered `round`. -/
def select (a : Assigner) (seed : Identifier) (requested : Nat) :
    Nat → Nat → IdentifierSet → Assignment → Except LedgerError Assignment
  | 0, _, _, chosen => .ok chosen
  | rounds + 1, round, pool, chosen =>
    match pick? (a.target seed round) pool with
    | none => .error (.insufficientCandidates requested chosen.size)
    | some picked =>
      match chosen.add picked with
      | .error e => .error e
      | .ok chosen => select a seed requested rounds (round + 1) (pool.erase picked) chosen

/-- The assignment of `count` of the accounts to the entity of the given identifier. -/
def assign (a : Assigner) (id : Identifier) (tag : String) (accounts : List Account) (count : Nat) :
    Except LedgerError Assignment :=
  if count = 0 then .error (.invalidArgument .emptyAssignment)
  else
    let pool := a.candidates accounts
    if pool.size < count then .error (.insufficientCandidates count pool.size)
    else a.select (a.seed id tag) count count 1 pool .empty

/-- The validators of an entity. -/
def assignValidators (a : Assigner) (id : Identifier) (accounts : List Account) (count : Nat) :
    Except LedgerError Assignment :=
  a.assign id validatorTag accounts count

/-- The proposer of the block after a block. -/
def assignProposer (a : Assigner) (block : Identifier) (accounts : List Account) :
    Except LedgerError Identifier :=
  match a.assign block proposerTag accounts 1 with
  | .error e => .error e
  | .ok assignment =>
    match assignment.members with
    | proposer :: _ => .ok proposer
    | [] => .error (.notFound (.proposer block))

end Assigner

end StakeLedger
