import Mathlib.Data.Nat.Notation

/-! Channel membership roles, shared by the git policy and the governance rules. -/

namespace Buzz.Channel

inductive MemberRole
  | owner
  | admin
  | member
  | guest
  | bot
  deriving DecidableEq, Repr

namespace MemberRole

def asStr : MemberRole → String
  | owner => "owner"
  | admin => "admin"
  | member => "member"
  | guest => "guest"
  | bot => "bot"

def fromStr (s : String) : Except String MemberRole :=
  if s = "owner" then .ok owner
  else if s = "admin" then .ok admin
  else if s = "member" then .ok member
  else if s = "guest" then .ok guest
  else if s = "bot" then .ok bot
  else .error s

def permissionLevel : MemberRole → ℕ
  | owner => 4
  | admin => 3
  | member => 2
  | guest => 1
  | bot => 0

def isElevated : MemberRole → Bool
  | owner | admin => true
  | member | guest | bot => false

def hasAtLeast (role required : MemberRole) : Bool :=
  required.permissionLevel ≤ role.permissionLevel

@[simp] theorem hasAtLeast_iff (role required : MemberRole) :
    role.hasAtLeast required ↔ required.permissionLevel ≤ role.permissionLevel := by
  simp [hasAtLeast]

theorem fromStr_asStr (role : MemberRole) : fromStr role.asStr = .ok role := by
  cases role <;> simp [fromStr, asStr]

end MemberRole

end Buzz.Channel
