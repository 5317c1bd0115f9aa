import Mathlib.Algebra.Group.Nat.Defs
import Opaal.Number.Digits

/-!
# Internet addresses

The texts of IPv4 and IPv6 addresses as `core::net` reads and writes them.  An IPv6 address is written
with its longest run of zero segments left out, and one that embeds an IPv4 address with that address.
Every address is read back from its own text.
-/

namespace Opaal.Net

open Opaal.Number List
open Nat (toDigits)

structure Ipv4Addr where
  first : UInt8
  second : UInt8
  third : UInt8
  fourth : UInt8
deriving DecidableEq

structure Ipv6Addr where
  segments : List UInt16
  eight : segments.length = 8
deriving DecidableEq

/-! ## Reading

A reader takes what it can from the front of a text. -/

/-- `Parser::read_number` -/
def readNumber (radix maxDigits bound : Nat) (allowZeroPrefix : Bool) (text : List Char) : Option (Nat × List Char) :=
  let digits := text.takeWhile (isDigitOf radix)
  if maxDigits < digits.length ∨ digits = [] then none
  else if bound ≤ digitsValue radix digits then none
  else if !allowZeroPrefix ∧ digits.head? = some '0' ∧ 1 < digits.length then none
  else some (digitsValue radix digits, text.dropWhile (isDigitOf radix))

def readGivenChar (given : Char) : List Char → Option (List Char)
  | [] => none
  | character :: rest => if character = given then some rest else none

def readOctet (text : List Char) : Option (UInt8 × List Char) := do
  let (number, rest) ← readNumber 10 3 256 false text
  return (UInt8.ofNat number, rest)

def readIpv4Addr (text : List Char) : Option (Ipv4Addr × List Char) := do
  let (first, text) ← readOctet text
  let (second, text) ← readOctet (← readGivenChar '.' text)
  let (third, text) ← readOctet (← readGivenChar '.' text)
  let (fourth, text) ← readOctet (← readGivenChar '.' text)
  return (⟨first, second, third, fourth⟩, text)

def readGroup (text : List Char) : Option (UInt16 × List Char) := do
  let (number, rest) ← readNumber 16 4 65536 true text
  return (UInt16.ofNat number, rest)

/-- All but the first part are read after a colon. -/
def readSeparated {α : Type} (first : Bool) (inner : List Char → Option α) (text : List Char) : Option α :=
  if first then inner text
  else do
    let text ← readGivenChar ':' text
    inner text

/-- `u16::from_be_bytes` -/
def fromBytes (high low : UInt8) : UInt16 := UInt16.ofNat (high.toNat * 256 + low.toNat)

def Ipv4Addr.high (address : Ipv4Addr) : UInt16 := fromBytes address.first address.second

def Ipv4Addr.low (address : Ipv4Addr) : UInt16 := fromBytes address.third address.fourth

/-- At most so many groups, whether an IPv4 address was the end of them, and what is left. -/
def readGroups (first : Bool) : (left : Nat) → List Char → List UInt16 × Bool × List Char
  | 0, text => ([], false, text)
  | left + 1, text =>
    match if 0 < left then readSeparated first readIpv4Addr text else none with
    | some (address, rest) => ([address.high, address.low], true, rest)
    | none =>
      match readSeparated first readGroup text with
      | some (group, rest) =>
        let (groups, ipv4, rest) := readGroups false left rest
        (group :: groups, ipv4, rest)
      | none => ([], false, text)

def readIpv6Segments (text : List Char) : Option (List UInt16 × List Char) :=
  let (head, headIpv4, text) := readGroups true 8 text
  if head.length = 8 then some (head, text)
  else if headIpv4 then none
  else do
    let text ← readGivenChar ':' text
    let text ← readGivenChar ':' text
    let (tail, _, text) := readGroups true (8 - (head.length + 1)) text
    return (head ++ List.replicate (8 - head.length - tail.length) 0 ++ tail, text)

def readIpv6Addr (text : List Char) : Option (Ipv6Addr × List Char) := do
  let (segments, rest) ← readIpv6Segments text
  if eight : segments.length = 8 then some (⟨segments, eight⟩, rest) else none

/-- The whole text has to be read. -/
def parseWith {α : Type} (read : List Char → Option (α × List Char)) (text : List Char) : Option α :=
  match read text with
  | some (value, []) => some value
  | _ => none

namespace Ipv4Addr

def parse : List Char → Option Ipv4Addr := parseWith readIpv4Addr

def isLoopback (address : Ipv4Addr) : Bool := address.first = 127

def toText (address : Ipv4Addr) : List Char :=
  toDigits 10 address.first.toNat ++ '.' :: (toDigits 10 address.second.toNat ++
    '.' :: (toDigits 10 address.third.toNat ++ '.' :: toDigits 10 address.fourth.toNat))

end Ipv4Addr

namespace Ipv6Addr

def parse : List Char → Option Ipv6Addr := parseWith readIpv6Addr

def isLoopback (address : Ipv6Addr) : Bool := address.segments = [0, 0, 0, 0, 0, 0, 0, 1]

def highByte (segment : UInt16) : UInt8 := UInt8.ofNat (segment.toNat / 256)

def lowByte (segment : UInt16) : UInt8 := UInt8.ofNat (segment.toNat % 256)

/-- The IPv4 address of `::ffff:a.b.c.d`. -/
def toIpv4Mapped (address : Ipv6Addr) : Option Ipv4Addr :=
  match address.segments with
  | [0, 0, 0, 0, 0, 0xffff, high, low] =>
    some ⟨highByte high, lowByte high, highByte low, lowByte low⟩
  | _ => none

/-- The start and the length of the first longest run of zeros. -/
def longestZeros : List UInt16 → (index : Nat) → (current longest : Nat × Nat) → Nat × Nat
  | [], _, _, longest => longest
  | segment :: segments, index, current, longest =>
    if segment = 0 then
      let current := (if current.2 = 0 then index else current.1, current.2 + 1)
      longestZeros segments (index + 1) current (if longest.2 < current.2 then current else longest)
    else longestZeros segments (index + 1) (0, 0) longest

/-- The groups after the first, each behind a colon. -/
def followingText (groups : List UInt16) : List Char := groups.flatMap fun group => ':' :: toDigits 16 group.toNat

/-- `fmt_subslice` -/
def groupsText : List UInt16 → List Char
  | [] => []
  | group :: groups => toDigits 16 group.toNat ++ followingText groups

def toText (address : Ipv6Addr) : List Char :=
  match address.toIpv4Mapped with
  | some ipv4 => ':' :: ':' :: 'f' :: 'f' :: 'f' :: 'f' :: ':' :: ipv4.toText
  | none =>
    let (start, length) := longestZeros address.segments 0 (0, 0) (0, 0)
    if 1 < length then
      groupsText (address.segments.take start) ++ ':' :: ':' :: groupsText (address.segments.drop (start + length))
    else groupsText address.segments

end Ipv6Addr

inductive IpAddr where
  | v4 (address : Ipv4Addr)
  | v6 (address : Ipv6Addr)
deriving DecidableEq

/-- `Parser::read_ip_addr` -/
def readIpAddr (text : List Char) : Option (IpAddr × List Char) :=
  match readIpv4Addr text with
  | some (address, rest) => some (.v4 address, rest)
  | none => (readIpv6Addr text).map fun (address, rest) => (.v6 address, rest)

def IpAddr.parse : List Char → Option IpAddr := parseWith readIpAddr

def IpAddr.isLoopback : IpAddr → Bool
  | v4 address => address.isLoopback
  | v6 address => address.isLoopback

/-! ## Reading numbers back -/

section Numbers

variable {rest : List Char}

theorem readNumber_toDigits {radix maxDigits bound number : Nat} (allowZeroPrefix : Bool) (large : 1 < radix)
    (small : radix ≤ 16) (fits : number < radix ^ maxDigits) (atLeastOne : 0 < maxDigits) (below : number < bound)
    (stops : ∀ next ∈ rest.head?, isDigitOf radix next = false) :
    readNumber radix maxDigits bound allowZeroPrefix (toDigits radix number ++ rest) = some (number, rest) := by
  obtain ⟨taken, dropped⟩ := takeWhile_digits (toDigits_all large small number) stops
  have value := digitsValue_toDigits large small number
  have short : (toDigits radix number).length ≤ maxDigits := (Nat.length_toDigits_le_iff large atLeastOne).mpr fits
  have plain : ¬(!allowZeroPrefix ∧ (toDigits radix number).head? = some '0' ∧ 1 < (toDigits radix number).length) := by
    rintro ⟨_, leading, long⟩
    rw [toDigits_leading_zero large small leading, Nat.toDigits_zero] at long
    exact absurd long (by decide)
  unfold readNumber
  rw [taken, dropped]
  dsimp only
  rw [value, if_neg, if_neg (Nat.not_le.mpr below), if_neg plain]
  rintro (long | empty)
  · omega
  · exact Nat.toDigits_ne_nil empty

theorem readOctet_toDigits (octet : UInt8) (stops : ∀ next ∈ rest.head?, isDigitOf 10 next = false) :
    readOctet (toDigits 10 octet.toNat ++ rest) = some (octet, rest) := by
  have below := octet.toNat_lt
  unfold readOctet
  rw [readNumber_toDigits false (by decide) (by decide) (by omega) (by decide) (by omega) stops]
  simp

theorem readGroup_toDigits (group : UInt16) (stops : ∀ next ∈ rest.head?, isDigitOf 16 next = false) :
    readGroup (toDigits 16 group.toNat ++ rest) = some (group, rest) := by
  have below := group.toNat_lt
  unfold readGroup
  rw [readNumber_toDigits true (by decide) (by decide) (by omega) (by decide) (by omega) stops]
  simp

theorem readIpv4Addr_toText (address : Ipv4Addr) (stops : ∀ next ∈ rest.head?, isDigitOf 10 next = false) :
    readIpv4Addr (address.toText ++ rest) = some (address, rest) := by
  have dot : ∀ text : List Char, ∀ next ∈ ('.' :: text).head?, isDigitOf 10 next = false := by
    intro text next isDot
    cases isDot
    decide
  unfold readIpv4Addr Ipv4Addr.toText
  simp only [append_assoc, cons_append]
  rw [readOctet_toDigits _ (dot _)]
  simp only [Option.bind_eq_bind, Option.bind_some, readGivenChar, if_true]
  rw [readOctet_toDigits _ (dot _)]
  simp only [Option.bind_some, if_true]
  rw [readOctet_toDigits _ (dot _)]
  simp only [Option.bind_some, if_true]
  rw [readOctet_toDigits _ stops]
  rfl

end Numbers

/-! ## Reading addresses back -/

/-- An IPv4 address is read back from its text. -/
theorem Ipv4Addr.parse_toText (address : Ipv4Addr) : parse address.toText = some address := by
  have read := @readIpv4Addr_toText [] address fun _ none => by cases none
  rw [append_nil] at read
  unfold parse parseWith
  rw [read]

/-- No dot follows the front of a text of groups, so that no IPv4 address is read from it. -/
theorem readIpv4Addr_group {digits rest : List Char} (hexadecimal : ∀ digit ∈ digits, isDigitOf 16 digit = true)
    (colon : ∀ next ∈ rest.head?, next = ':') : readIpv4Addr (digits ++ rest) = none := by
  have noDot : readGivenChar '.' ((digits ++ rest).dropWhile (isDigitOf 10)) = none := by
    have colonStops : rest.dropWhile (isDigitOf 10) = rest := by
      cases rest with
      | nil => rfl
      | cons next =>
        rw [colon next rfl]
        rfl
    have rejects : ∀ text : List Char, (∀ next ∈ text.head?, next ≠ '.') → readGivenChar '.' text = none := by
      intro text different
      cases text with
      | nil => rfl
      | cons next => exact if_neg (different next rfl)
    apply rejects
    intro next isNext
    rw [dropWhile_append] at isNext
    split at isNext
    · rw [colonStops] at isNext
      rw [colon next isNext]
      decide
    · next more =>
      have member : next ∈ digits := by
        cases left : digits.dropWhile (isDigitOf 10) with
        | nil => simp [left] at more
        | cons =>
          rw [left] at isNext
          cases isNext
          exact (dropWhile_suffix _).mem (left ▸ mem_cons_self)
      intro isDot
      have digit := hexadecimal next member
      rw [isDot] at digit
      cases digit
  unfold readIpv4Addr readOctet readNumber
  dsimp only
  split
  · rfl
  · split
    · rfl
    · split
      · rfl
      · simp [noDot]

theorem colon_stops (text : List Char) : ∀ next ∈ (':' :: text).head?, isDigitOf 16 next = false := by
  intro next isColon
  cases isColon
  decide

section Groups

variable {first : Bool} {left : Nat} {text : List Char}

theorem readGroups_stop (no4 : readSeparated first readIpv4Addr text = none)
    (no6 : readSeparated first readGroup text = none) : readGroups first (left + 1) text = ([], false, text) := by
  unfold readGroups
  rw [no4, no6, ite_self]

theorem readGroups_group {group : UInt16} {groups : List UInt16} {rest last : List Char}
    (no4 : readSeparated first readIpv4Addr text = none) (one : readSeparated first readGroup text = some (group, rest))
    (others : readGroups false left rest = (groups, false, last)) :
    readGroups first (left + 1) text = (group :: groups, false, last) := by
  unfold readGroups
  rw [no4, one, ite_self]
  dsimp only
  rw [others]

end Groups

/-- Nothing more is read at the end of a text and where zeros were left out. -/
def Halts (text : List Char) : Prop := text = [] ∨ ∃ more, text = ':' :: ':' :: more

namespace Ipv6Addr

variable {groups : List UInt16} {rest : List Char}

theorem followingText_head (halts : Halts rest) :
    (∀ next ∈ (followingText groups ++ rest).head?, next = ':') := by
  intro next isNext
  cases groups with
  | nil =>
    rcases halts with rfl | ⟨_, rfl⟩
    · cases isNext
    · cases isNext
      rfl
  | cons =>
    cases isNext
    rfl

theorem followingText_stops (halts : Halts rest) :
    ∀ next ∈ (followingText groups ++ rest).head?, isDigitOf 16 next = false := by
  intro next isNext
  rw [followingText_head halts next isNext]
  decide

theorem readGroups_halts (halts : Halts rest) (left : Nat) :
    readGroups false left rest = ([], false, rest) := by
  cases left with
  | zero => rfl
  | succ =>
    have no4 : readSeparated false readIpv4Addr rest = none := by
      rcases halts with rfl | ⟨more, rfl⟩ <;> rfl
    have no6 : readSeparated false readGroup rest = none := by
      rcases halts with rfl | ⟨_, rfl⟩ <;> rfl
    exact readGroups_stop no4 no6

/-- Groups behind colons are read one after another. -/
theorem readGroups_following (halts : Halts rest) {left : Nat} (fits : groups.length ≤ left) : readGroups false left (followingText groups ++ rest) = (groups, false, rest) := by
  induction groups generalizing left with
  | nil => exact readGroups_halts halts left
  | cons group groups ih =>
    cases left with
    | zero => cases fits
    | succ =>
      have onward := ih (Nat.le_of_succ_le_succ fits)
      have text : followingText (group :: groups) ++ rest =
          ':' :: (toDigits 16 group.toNat ++ (followingText groups ++ rest)) := by
        simp [followingText]
      have no4 : readSeparated false readIpv4Addr (followingText (group :: groups) ++ rest) = none := by
        rw [text]
        exact readIpv4Addr_group (toDigits_all (by decide) (by decide) _) (followingText_head halts)
      have one : readSeparated false readGroup (followingText (group :: groups) ++ rest) =
          some (group, followingText groups ++ rest) := by
        rw [text]
        exact readGroup_toDigits group (followingText_stops halts)
      exact readGroups_group no4 one onward

/-- Groups are read back from their text, up to where nothing more is read. -/
theorem readGroups_groupsText (halts : Halts rest) {left : Nat} (fits : groups.length ≤ left) : readGroups true left (groupsText groups ++ rest) = (groups, false, rest) := by
  cases left with
  | zero =>
    rw [length_eq_zero_iff.mp (Nat.le_zero.mp fits)]
    rfl
  | succ =>
    cases groups with
    | nil =>
      have no4 : readSeparated true readIpv4Addr rest = none := by
        rcases halts with rfl | ⟨more, rfl⟩ <;> rfl
      have no6 : readSeparated true readGroup rest = none := by
        rcases halts with rfl | ⟨_, rfl⟩ <;> rfl
      exact readGroups_stop no4 no6
    | cons group groups =>
      have onward := readGroups_following halts (Nat.le_of_succ_le_succ fits)
      have text : groupsText (group :: groups) ++ rest =
          toDigits 16 group.toNat ++ (followingText groups ++ rest) := by
        simp [groupsText]
      have no4 : readSeparated true readIpv4Addr (groupsText (group :: groups) ++ rest) = none := by
        rw [text]
        exact readIpv4Addr_group (toDigits_all (by decide) (by decide) _) (followingText_head halts)
      have one : readSeparated true readGroup (groupsText (group :: groups) ++ rest) =
          some (group, followingText groups ++ rest) := by
        rw [text]
        exact readGroup_toDigits group (followingText_stops halts)
      exact readGroups_group no4 one onward

/-! ### The zeros that are left out -/

/-- A run of zeros, by its start and its length. -/
structure ZeroRun (segments : List UInt16) (run : Nat × Nat) : Prop where
  inside : run.1 + run.2 ≤ segments.length
  zeros : (segments.drop run.1).take run.2 = List.replicate run.2 0

theorem ZeroRun.grow {front rest : List UInt16} {current : Nat × Nat} (run : ZeroRun (front ++ 0 :: rest) current)
    (ends : current.1 + current.2 = front.length) : ZeroRun (front ++ 0 :: rest) (current.1, current.2 + 1) := by
  refine ⟨?_, ?_⟩
  · rw [length_append, length_cons]
    omega
  · have next : (front ++ 0 :: rest).drop front.length = 0 :: rest := drop_left
    rw [take_add, run.zeros, drop_drop, ends, next, replicate_succ']
    rfl

theorem zeroRun_one (front rest : List UInt16) : ZeroRun (front ++ 0 :: rest) (front.length, 1) := by
  refine ⟨?_, ?_⟩
  · rw [length_append, length_cons]
    omega
  · rw [drop_left]
    rfl

theorem longestZeros_run (rest front : List UInt16) {current longest : Nat × Nat}
    (running : current.2 = 0 ∨ (current.1 + current.2 = front.length ∧ ZeroRun (front ++ rest) current))
    (found : ZeroRun (front ++ rest) longest) :
    ZeroRun (front ++ rest) (longestZeros rest front.length current longest) := by
  induction rest generalizing front current longest with
  | nil => exact found
  | cons segment rest ih =>
    have shift : front ++ segment :: rest = (front ++ [segment]) ++ rest := by simp
    have length : front.length + 1 = (front ++ [segment]).length := by simp
    unfold longestZeros
    split
    · next zero =>
      subst zero
      have grown : (if current.2 = 0 then front.length else current.1) + (current.2 + 1) = front.length + 1 ∧
          ZeroRun (front ++ 0 :: rest) (if current.2 = 0 then front.length else current.1, current.2 + 1) := by
        rcases running with none | ⟨ends, run⟩
        · rw [if_pos none, none]
          exact ⟨rfl, zeroRun_one front rest⟩
        · split
          · next none =>
            rw [none]
            exact ⟨rfl, zeroRun_one front rest⟩
          · exact ⟨by omega, run.grow ends⟩
      dsimp only
      rw [length, shift]
      apply ih
      · right
        rw [← length, ← shift]
        exact grown
      · rw [← shift]
        split
        · exact grown.2
        · exact found
    · rw [length, shift]
      apply ih
      · exact .inl rfl
      · rw [← shift]
        exact found

theorem ZeroRun.split {segments : List UInt16} {start length : Nat} (run : ZeroRun segments (start, length)) :
    segments = segments.take start ++ List.replicate length 0 ++ segments.drop (start + length) := by
  have zeros : (segments.drop start).take length = List.replicate length 0 := run.zeros
  have whole : segments.drop start = List.replicate length 0 ++ segments.drop (start + length) := by
    rw [← zeros, ← drop_drop]
    exact (take_append_drop length _).symm
  rw [append_assoc, ← whole]
  exact (take_append_drop start segments).symm

/-! ### The whole address -/

theorem fromBytes_split (segment : UInt16) : fromBytes (highByte segment) (lowByte segment) = segment := by
  have below := segment.toNat_lt
  apply UInt16.toNat_inj.mp
  unfold fromBytes highByte lowByte
  rw [UInt16.toNat_ofNat', UInt8.toNat_ofNat', UInt8.toNat_ofNat']
  omega

theorem parse_of_segments {address : Ipv6Addr} {text : List Char}
    (read : readIpv6Segments text = some (address.segments, [])) : parse text = some address := by
  unfold parse parseWith readIpv6Addr
  rw [read]
  simp [dif_pos address.eight]

/-- A reading that stops at the zeros that were left out. -/
theorem readIpv6Segments_compressed {head tail : List UInt16} {ipv4 : Bool} {text : List Char} (short : head.length < 8)
    (front : readGroups true 8 text = (head, false, ':' :: ':' :: rest))
    (back : readGroups true (8 - (head.length + 1)) rest = (tail, ipv4, [])) :
    readIpv6Segments text = some (head ++ List.replicate (8 - head.length - tail.length) 0 ++ tail, []) := by
  unfold readIpv6Segments
  rw [front]
  dsimp only
  rw [if_neg (Nat.ne_of_lt short), if_neg (by decide)]
  simp only [readGivenChar, if_true, Option.bind_eq_bind, Option.bind_some]
  rw [back]
  rfl

theorem readIpv6Segments_mapped {high low : UInt16} {ipv4 : Ipv4Addr} (isHigh : ipv4.high = high) (isLow : ipv4.low = low) :
    readIpv6Segments (':' :: ':' :: 'f' :: 'f' :: 'f' :: 'f' :: ':' :: ipv4.toText) =
      some ([0, 0, 0, 0, 0, 0xffff, high, low], []) := by
  have embedded := @readIpv4Addr_toText [] ipv4 fun _ none => by cases none
  rw [append_nil] at embedded
  have front := @readGroups_groupsText [] (':' :: ':' :: 'f' :: 'f' :: 'f' :: 'f' :: ':' :: ipv4.toText) (.inr ⟨_, rfl⟩) 8
    (Nat.zero_le 8)
  have last : readGroups false 6 (':' :: ipv4.toText) = ([high, low], true, []) := by
    have first : readSeparated false readIpv4Addr (':' :: ipv4.toText) = some (ipv4, []) := embedded
    unfold readGroups
    rw [first, if_pos (by decide)]
    dsimp only
    rw [isHigh, isLow]
  have no4 : readSeparated true readIpv4Addr ("ffff".toList ++ ':' :: ipv4.toText) = none := by
    refine readIpv4Addr_group (all_eq_true.mp (by decide)) ?_
    intro next isColon
    cases isColon
    rfl
  have one : readSeparated true readGroup ("ffff".toList ++ ':' :: ipv4.toText) = some (0xffff, ':' :: ipv4.toText) := by
    have digits : "ffff".toList = toDigits 16 (0xffff : UInt16).toNat := by decide
    rw [digits]
    exact readGroup_toDigits 0xffff (colon_stops _)
  have back : readGroups true 7 ("ffff".toList ++ ':' :: ipv4.toText) = ([0xffff, high, low], true, []) := by
    unfold readGroups
    rw [no4, one, ite_self]
    dsimp only
    rw [last]
  exact readIpv6Segments_compressed (by decide) front back

theorem toIpv4Mapped_eq {address : Ipv6Addr} {ipv4 : Ipv4Addr} (mapped : address.toIpv4Mapped = some ipv4) :
    address.segments = [0, 0, 0, 0, 0, 0xffff, ipv4.high, ipv4.low] := by
  unfold toIpv4Mapped at mapped
  split at mapped
  · next high low segments =>
    cases mapped
    rw [segments]
    show _ = [0, 0, 0, 0, 0, 0xffff, fromBytes (highByte high) (lowByte high), fromBytes (highByte low) (lowByte low)]
    rw [fromBytes_split, fromBytes_split]
  · cases mapped

/-- An IPv6 address is read back from its text. -/
theorem parse_toText (address : Ipv6Addr) : parse address.toText = some address := by
  have eight := address.eight
  apply parse_of_segments
  unfold toText
  cases mapped : address.toIpv4Mapped with
  | some =>
    rw [toIpv4Mapped_eq mapped]
    exact readIpv6Segments_mapped rfl rfl
  | none =>
    have none : ZeroRun ([] ++ address.segments) (0, 0) := ⟨Nat.zero_le _, rfl⟩
    have run := @longestZeros_run address.segments [] (0, 0) (0, 0) (.inl rfl) none
    rw [nil_append, length_nil] at run
    dsimp only
    generalize longestZeros address.segments 0 (0, 0) (0, 0) = found at run ⊢
    obtain ⟨start, length⟩ := found
    have inside : start + length ≤ address.segments.length := run.inside
    split
    · next compressed =>
      have headLength : (address.segments.take start).length = start := by
        rw [length_take]
        omega
      have tailLength : (address.segments.drop (start + length)).length = 8 - (start + length) := by
        rw [length_drop, eight]
      have front := @readGroups_groupsText (address.segments.take start)
        (':' :: ':' :: groupsText (address.segments.drop (start + length))) (.inr ⟨_, rfl⟩) 8 (by omega)
      have back := @readGroups_groupsText (address.segments.drop (start + length)) [] (.inl rfl)
        (8 - ((address.segments.take start).length + 1)) (by omega)
      rw [append_nil] at back
      have read := readIpv6Segments_compressed (by omega) front back
      have zeros : 8 - (address.segments.take start).length - (address.segments.drop (start + length)).length = length := by
        omega
      rw [zeros, ← run.split] at read
      exact read
    · have whole := @readGroups_groupsText address.segments [] (.inl rfl) 8 (by omega)
      rw [append_nil] at whole
      unfold readIpv6Segments
      rw [whole]
      dsimp only
      rw [if_pos eight]

end Ipv6Addr

end Opaal.Net
