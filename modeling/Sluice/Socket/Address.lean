/-
  File:      Sluice/Socket/Address.lean
  Subject:   Internet addresses of a service on a host, read from text and written.

  * `Host`, `Address`: four octets, or eight groups and a zone, and the number of a service;
  * `Address.text`: the written form; of the groups that are zero, the longest run of two or more is
    left out, the first of several, and zone zero is never written;
  * `Address.ofText?`: an address from any of its written forms.
-/
import Sluice.Text.Radix

namespace Sluice.Socket

/-- A host. The zone says on which link of this machine eight groups are to be looked for; zero
    leaves that open. -/
inductive Host where
  | v4 (a b c d : UInt8)
  | v6 (groups : Vector UInt16 8) (zone : UInt32)
  deriving DecidableEq, Repr

/-- A service on a host, by its number. -/
structure Address where
  host : Host
  service : UInt16
  deriving DecidableEq, Repr

/-! ## 1. Writing -/

/-- Four octets with dots between them. -/
def dotted (a b c d : UInt8) : String := s!"{a.toNat}.{b.toNat}.{c.toNat}.{d.toNat}"

/-- Groups in hexadecimal, with colons between them. -/
def colons (groups : List UInt16) : String :=
  ":".intercalate (groups.map fun g => String.ofList (Nat.toDigits 16 g.toNat))

/-- How many zero groups stand at a place. -/
def zerosAt (groups : List UInt16) (i : Nat) : Nat := ((groups.drop i).takeWhile (· == 0)).length

/-- The first place of the longest run of zero groups. -/
def longestZeros (groups : List UInt16) : Nat :=
  (List.range groups.length).foldl
    (fun best i => if zerosAt groups best < zerosAt groups i then i else best) 0

/-- Eight groups, the longest run of zeros left out; four octets that are mapped into the groups are
    written as such. -/
def shortened : List UInt16 → String
  | [0, 0, 0, 0, 0, 0xffff, high, low] =>
    "::ffff:" ++ dotted (high >>> 8).toUInt8 high.toUInt8 (low >>> 8).toUInt8 low.toUInt8
  | groups =>
    let i := longestZeros groups
    let n := zerosAt groups i
    if n < 2 then colons groups
    else colons (groups.take i) ++ "::" ++ colons (groups.drop (i + n))

namespace Host

/-- The written form of a host: a zone stands behind a percent sign. -/
def text : Host → String
  | v4 a b c d => dotted a b c d
  | v6 groups zone => shortened groups.toList ++ if zone = 0 then "" else s!"%{zone.toNat}"

/-- This machine itself. -/
def loopback : Host := v4 127 0 0 1

/-- All interfaces of this machine. -/
def unspecified : Host := v4 0 0 0 0

end Host

/-- The written form of an address. -/
def Address.text (a : Address) : String :=
  match a.host with
  | .v4 _ _ _ _ => s!"{a.host.text}:{a.service.toNat}"
  | .v6 _ _ => s!"[{a.host.text}]:{a.service.toNat}"

/-! ## 2. Reading -/

/-- The parts of a text between separators. -/
def parts (sep : Char) : Text → List Text
  | [] => [[]]
  | c :: cs =>
    if c = sep then [] :: parts sep cs
    else
      match parts sep cs with
      | [] => [[c]]
      | p :: ps => (c :: p) :: ps

/-- The texts before and behind the first pair of colons. -/
def aroundGap? : Text → Option (Text × Text)
  | ':' :: ':' :: cs => some ([], cs)
  | c :: cs => (aroundGap? cs).map fun (before, behind) => (c :: before, behind)
  | [] => none

/-- A number in a radix, not above `most`. -/
def number? (radix most : Nat) (t : Text) : Option Nat :=
  match Radix.parse? radix t with
  | some n => if n.toNat ≤ most then some n.toNat else none
  | none => none

/-- An octet: no zero stands before other digits. -/
def octet? (t : Text) : Option UInt8 :=
  match t with
  | '0' :: _ :: _ => none
  | _ => (number? 10 255 t).map UInt8.ofNat

/-- Four octets with dots between them. -/
def octets? (t : Text) : Option (UInt8 × UInt8 × UInt8 × UInt8) :=
  match (parts '.' t).map octet? with
  | [some a, some b, some c, some d] => some (a, b, c, d)
  | _ => none

/-- A group: one to four hexadecimal digits. -/
def group? (t : Text) : Option UInt16 :=
  if t.length ≤ 4 then (number? 16 0xffff t).map UInt16.ofNat else none

/-- Groups with colons between them; the last two may be written as four octets if `dots` says
    so. -/
def groups? (dots : Bool) : List Text → Option (List UInt16)
  | [] => some []
  | [t] =>
    match (if dots then octets? t else none) with
    | some (a, b, c, d) =>
      some [a.toUInt16 <<< 8 ||| b.toUInt16, c.toUInt16 <<< 8 ||| d.toUInt16]
    | none => (group? t).map ([·])
  | t :: ts =>
    match group? t, groups? dots ts with
    | some g, some gs => some (g :: gs)
    | _, _ => none

/-- The groups of a text between colons, none of an empty text. -/
def groupsOf? (dots : Bool) (t : Text) : Option (List UInt16) :=
  if t.isEmpty then some [] else groups? dots (parts ':' t)

/-- Eight groups, at least one of which a pair of colons stands for. -/
def eight? (t : Text) : Option (Vector UInt16 8) :=
  let groups := match aroundGap? t with
    | none => groupsOf? true t
    | some (before, behind) =>
      match groupsOf? false before, groupsOf? true behind with
      | some left, some right =>
        if left.length + right.length < 8 then
          some (left ++ List.replicate (8 - left.length - right.length) 0 ++ right)
        else none
      | _, _ => none
  match groups with
  | none => none
  | some gs => if h : gs.toArray.size = 8 then some ⟨gs.toArray, h⟩ else none

/-- A host of eight groups, and the number of its zone behind a percent sign if there is one. -/
def v6? (t : Text) : Option Host :=
  match parts '%' t with
  | [groups] => (eight? groups).map (.v6 · 0)
  | [groups, zone] =>
    match eight? groups, number? 10 0xffffffff zone with
    | some groups, some zone => some (.v6 groups (UInt32.ofNat zone))
    | _, _ => none
  | _ => none

/-- The number of a service. -/
def service? (t : Text) : Option UInt16 := (number? 10 0xffff t).map UInt16.ofNat

/-- An address from its text: four octets, or groups in brackets, and the number behind a colon. -/
def Address.ofText? (t : Text) : Option Address :=
  match t with
  | '[' :: rest =>
    match parts ']' rest with
    | [host, ':' :: service] =>
      match v6? host, service? service with
      | some host, some service => some ⟨host, service⟩
      | _, _ => none
    | _ => none
  | _ =>
    match parts ':' t with
    | [host, service] =>
      match octets? host, service? service with
      | some (a, b, c, d), some service => some ⟨.v4 a b c d, service⟩
      | _, _ => none
    | _ => none

end Sluice.Socket
