import Opaal.Net.Address

/-!
# What the texts of addresses are made of

An IPv4 address is digits and dots, an IPv6 address has a colon; so no text is both, and a name that is
neither has no address.
-/

namespace Opaal.Net

open Opaal.Number List

/-! ## IPv4 -/

variable {text rest : List Char}

theorem readNumber_split {radix maxDigits bound number : Nat} {allowZeroPrefix : Bool}
    (read : readNumber radix maxDigits bound allowZeroPrefix text = some (number, rest)) :
    ∃ digits, text = digits ++ rest ∧ ∀ digit ∈ digits, isDigitOf radix digit = true := by
  unfold readNumber at read
  simp only [Option.ite_none_left_eq_some] at read
  obtain ⟨_, _, _, same⟩ := read
  cases same
  exact ⟨_, (takeWhile_append_dropWhile).symm, fun digit member => mem_takeWhile_imp member⟩

theorem readGivenChar_eq {given : Char} (read : readGivenChar given text = some rest) :
    text = given :: rest := by
  cases text with
  | nil => cases read
  | cons character text =>
    have taken : (if character = given then some text else none) = some rest := read
    split at taken
    · next same =>
      rw [same, Option.some.inj taken]
    · cases taken

/-- What stands in the text of an IPv4 address. -/
def isIpv4Char (character : Char) : Bool := isDigitOf 10 character || character == '.'

theorem readOctet_split {octet : UInt8} (read : readOctet text = some (octet, rest)) :
    ∃ digits, text = digits ++ rest ∧ ∀ digit ∈ digits, isIpv4Char digit = true := by
  unfold readOctet at read
  simp only [Option.bind_eq_bind, Option.bind_eq_some_iff] at read
  obtain ⟨⟨_, _⟩, number', same⟩ := read
  cases same
  obtain ⟨digits, split, all⟩ := readNumber_split number'
  refine ⟨digits, split, ?_⟩
  intro digit member
  unfold isIpv4Char
  rw [all digit member, Bool.true_or]

theorem readIpv4Addr_split {address : Ipv4Addr} (read : readIpv4Addr text = some (address, rest)) :
    ∃ front, text = front ++ rest ∧ ∀ character ∈ front, isIpv4Char character = true := by
  unfold readIpv4Addr at read
  simp only [Option.bind_eq_bind, Option.bind_eq_some_iff] at read
  obtain ⟨⟨_, _⟩, read1, _, dot1, ⟨_, _⟩, read2, _, dot2, ⟨_, _⟩, read3, _, dot3,
    ⟨_, _⟩, read4, same⟩ := read
  cases same
  dsimp only at dot1 dot2 dot3
  obtain ⟨digits1, split1, all1⟩ := readOctet_split read1
  obtain ⟨digits2, split2, all2⟩ := readOctet_split read2
  obtain ⟨digits3, split3, all3⟩ := readOctet_split read3
  obtain ⟨digits4, split4, all4⟩ := readOctet_split read4
  refine ⟨digits1 ++ '.' :: (digits2 ++ '.' :: (digits3 ++ '.' :: digits4)), ?_, ?_⟩
  · rw [split1, readGivenChar_eq dot1, split2, readGivenChar_eq dot2, split3, readGivenChar_eq dot3, split4]
    simp
  · intro character member
    simp only [mem_append, mem_cons] at member
    rcases member with early | rfl | early | rfl | early | rfl | early
    · exact all1 _ early
    · decide
    · exact all2 _ early
    · decide
    · exact all3 _ early
    · decide
    · exact all4 _ early

theorem parseWith_some {α : Type} {read : List Char → Option (α × List Char)} {value : α}
    (parsed : parseWith read text = some value) : read text = some (value, []) := by
  unfold parseWith at parsed
  split at parsed
  · next found =>
    cases parsed
    exact found
  · cases parsed

theorem Ipv4Addr.parse_chars {address : Ipv4Addr} (parsed : parse text = some address) :
    ∀ character ∈ text, isIpv4Char character = true := by
  obtain ⟨_, split, all⟩ := readIpv4Addr_split (parseWith_some parsed)
  rw [append_nil] at split
  rw [split]
  exact all

theorem Ipv4Addr.toText_chars (address : Ipv4Addr) : ∀ character ∈ address.toText, isIpv4Char character = true :=
  parse_chars address.parse_toText

/-! ## IPv6 -/

theorem readGivenChar_absent {given : Char} (absent : given ∉ text) : readGivenChar given text = none := by
  cases read : readGivenChar given text with
  | none => rfl
  | some => exact absurd (readGivenChar_eq read ▸ mem_cons_self) absent

/-- Without a colon there is one group at most. -/
theorem readGroups_plain (plain : ':' ∉ text) (left : Nat) :
    readGroups false left text = ([], false, text) := by
  cases left with
  | zero => rfl
  | succ =>
    have absent : ∀ {α : Type} (inner : List Char → Option α), readSeparated false inner text = none := by
      intro α inner
      unfold readSeparated
      rw [if_neg (by decide), readGivenChar_absent plain]
      rfl
    exact readGroups_stop (absent _) (absent _)

theorem readGroup_split {group : UInt16} (read : readGroup text = some (group, rest)) :
    ∃ digits, text = digits ++ rest := by
  unfold readGroup at read
  simp only [Option.bind_eq_bind, Option.bind_eq_some_iff] at read
  obtain ⟨⟨_, _⟩, number', same⟩ := read
  cases same
  obtain ⟨digits, split, _⟩ := readNumber_split number'
  exact ⟨digits, split⟩

theorem readIpv6Segments_plain (plain : ':' ∉ text) : readIpv6Segments text = none := by
  have groups : ∃ head ipv4 rest, readGroups true 8 text = (head, ipv4, rest) ∧ head.length ≠ 8 ∧
      (ipv4 = true ∨ ':' ∉ rest) := by
    unfold readGroups
    split
    · exact ⟨_, true, _, rfl, by simp, .inl rfl⟩
    · split
      · next group rest one =>
        obtain ⟨digits, split⟩ := readGroup_split one
        have less : ':' ∉ rest := fun member => plain (split ▸ mem_append_right digits member)
        rw [readGroups_plain less]
        exact ⟨_, false, rest, rfl, by simp, .inr less⟩
      · exact ⟨_, false, text, rfl, by simp, .inr plain⟩
  obtain ⟨_, _, _, read, short, ends⟩ := groups
  unfold readIpv6Segments
  rw [read]
  dsimp only
  rw [if_neg short]
  rcases ends with rfl | less
  · rfl
  · split
    · rfl
    · rw [readGivenChar_absent less]
      rfl

theorem Ipv6Addr.parse_plain (plain : ':' ∉ text) : parse text = none := by
  unfold parse parseWith readIpv6Addr
  rw [readIpv6Segments_plain plain]
  rfl

variable (address : Ipv6Addr)

theorem Ipv6Addr.toText_colon : ':' ∈ address.toText := by
  by_contra plain
  have parsed := address.parse_toText
  rw [parse_plain plain] at parsed
  cases parsed

/-- What stands in the text of an IPv6 address. -/
def isIpv6Char (character : Char) : Bool := isDigitOf 16 character || character == ':' || character == '.'

theorem isIpv6Char_of_digit {character : Char} (digit : isDigitOf 16 character = true) : isIpv6Char character = true := by
  unfold isIpv6Char
  rw [digit]
  rfl

theorem isIpv6Char_of_ipv4 {character : Char} (ipv4 : isIpv4Char character = true) : isIpv6Char character = true := by
  unfold isIpv4Char at ipv4
  rw [Bool.or_eq_true] at ipv4
  rcases ipv4 with digit | dot
  · exact isIpv6Char_of_digit (isDigitOf_of_le (by decide) digit)
  · unfold isIpv6Char
    rw [dot, Bool.or_true]

theorem Ipv6Addr.groupsText_chars (groups : List UInt16) : ∀ character ∈ groupsText groups, isIpv6Char character = true := by
  have digits : ∀ group : UInt16, ∀ character ∈ Nat.toDigits 16 group.toNat, isIpv6Char character = true :=
    fun group character member => isIpv6Char_of_digit (toDigits_all (by decide) (by decide) _ character member)
  intro character member
  cases groups with
  | nil => cases member
  | cons group =>
    rcases mem_append.mp member with first | later
    · exact digits group character first
    · obtain ⟨other, _, following⟩ := mem_flatMap.mp later
      rcases mem_cons.mp following with rfl | digit
      · rfl
      · exact digits other character digit

theorem Ipv6Addr.toText_chars : ∀ character ∈ address.toText, isIpv6Char character = true := by
  intro character member
  unfold toText at member
  split at member
  · next ipv4 _ =>
    simp only [mem_cons] at member
    rcases member with rfl | rfl | rfl | rfl | rfl | rfl | rfl | embedded
    any_goals rfl
    exact isIpv6Char_of_ipv4 (ipv4.toText_chars character embedded)
  · dsimp only at member
    split at member
    · rcases mem_append.mp member with front | back
      · exact groupsText_chars _ character front
      · simp only [mem_cons] at back
        rcases back with rfl | rfl | back
        · rfl
        · rfl
        · exact groupsText_chars _ character back
    · exact groupsText_chars _ character member

/-! ## Either -/

/-- No IPv4 address is read from the front of the text of an IPv6 address. -/
theorem Ipv6Addr.readIpv4Addr_toText : readIpv4Addr address.toText = none := by
  have grouped : ∀ (groups : List UInt16) (rest : List Char), (∀ next ∈ rest.head?, next = ':') →
      readIpv4Addr (groupsText groups ++ rest) = none := by
    intro groups rest colon
    cases groups with
    | nil => exact readIpv4Addr_group (fun _ member => by cases member) colon
    | cons group groups =>
      have text : groupsText (group :: groups) ++ rest = Nat.toDigits 16 group.toNat ++ (followingText groups ++ rest) := by
        simp [groupsText]
      rw [text]
      refine readIpv4Addr_group (toDigits_all (by decide) (by decide) _) ?_
      intro next isNext
      cases groups with
      | nil => exact colon next isNext
      | cons =>
        cases isNext
        rfl
  have colon : ∀ (rest : List Char), ∀ next ∈ (':' :: rest).head?, next = ':' := by
    intro rest next isNext
    cases isNext
    rfl
  unfold toText
  split
  · exact grouped [] _ (colon _)
  · dsimp only
    split
    · exact grouped _ _ (colon _)
    · have whole := grouped address.segments [] fun _ none => by cases none
      rw [append_nil] at whole
      exact whole

theorem IpAddr.parse_v4 (address : Ipv4Addr) : parse address.toText = some (.v4 address) := by
  unfold parse parseWith readIpAddr
  rw [parseWith_some address.parse_toText]

theorem IpAddr.parse_v6 : parse address.toText = some (.v6 address) := by
  unfold parse parseWith readIpAddr
  rw [address.readIpv4Addr_toText, parseWith_some address.parse_toText]
  rfl

/-- The text of an IPv6 address is no IPv4 address. -/
theorem Ipv4Addr.parse_v6 : parse address.toText = none := by
  unfold parse parseWith
  rw [address.readIpv4Addr_toText]

/-- The text of an IPv4 address is no IPv6 address. -/
theorem Ipv6Addr.parse_v4 (address : Ipv4Addr) : parse address.toText = none := by
  apply parse_plain
  intro colon
  have char := address.toText_chars ':' colon
  cases char

end Opaal.Net
