import FreshNames.Text.Cut
import FreshNames.Text.Percent

/-!
# Network addresses

The written forms of addresses of version 4 (four numbers below 256) and of version 6 (eight groups
of hexadecimal digits, of which one run of zero groups may be left out and the last two may be an
address of version 4; a scope may follow).

* `isAddress4`, `isAddress6`.
-/

set_option autoImplicit false

namespace FreshNames.Url

open Text

/-- One of the four numbers: one to three digits, below 256, without leading zeros. -/
def isOctet (t : Text) : Bool :=
  !t.isEmpty && t.length ≤ 3 && t.all Char.isDigit && (t.length == 1 || t.head? != some '0')
    && t.foldl (fun n c => 10 * n + (c.toNat - 48)) 0 ≤ 255

/-- Is this an address of version 4? -/
def isAddress4 (t : Text) : Bool :=
  let octets := parts '.' t
  octets.length == 4 && octets.all isOctet

/-- One group: one to four hexadecimal digits. -/
def isGroup (t : Text) : Bool := !t.isEmpty && t.length ≤ 4 && t.all (hexValue? · |>.isSome)

/-- The groups, with two groups in place of an address of version 4 at the end; `none` if that
    address is no good. -/
def groups? (t : Text) : Option (List Text) :=
  let groups := parts ':' t
  match groups.getLast? with
  | some last =>
    if last.contains '.' then
      if isAddress4 last then some (groups.dropLast ++ [['0'], ['0']]) else none
    else some groups
  | none => some groups

/-- The inner places where a group is left out. -/
def gaps (groups : List Text) : List Nat :=
  (List.range groups.length).filter fun i =>
    0 < i && i + 1 < groups.length && groups[i]? == some []

/-- Are these the groups of an address?  Without a gap there are eight; with one there are fewer,
    and an empty group at an end stands only next to it. -/
def areGroups (groups : List Text) : Bool :=
  match gaps groups with
  | [] => groups.length == 8 && groups.all isGroup
  | [gap] =>
    let before := groups.take gap
    let after := groups.drop (gap + 1)
    let before := if before == [[]] then [] else before
    let after := if after == [[]] then [] else after
    before.length + after.length < 8 && before.all isGroup && after.all isGroup
  | _ => false

/-- Is this the scope of an address? -/
def isScope (t : Text) : Bool := !t.isEmpty && !t.contains '%'

/-- Is this an address of version 6? -/
def isAddress6 (t : Text) : Bool :=
  let (address, scopeOk) :=
    match cut '%' t with
    | some (address, scope) => (address, isScope scope)
    | none => (t, true)
  scopeOk && 3 ≤ (parts ':' address).length
    && (match groups? address with
      | none => false
      | some groups => groups.length ≤ 9 && areGroups groups)

end FreshNames.Url
