import Mathlib
import Opaal.Machine.Stateful
import Opaal.Operational.Url
import Opaal.Text.Ascii

/-!
# Parsing a URL is normalising it

What an accepted URL looks like: its host is the text of an address or a name in lower case, its port is
not zero and its path is one that normalising leaves as it is.  Such a URL is read back from its text, and
the adapter takes its host and its path.
-/

namespace Opaal.Operational

open Opaal.Machine (bind_ok)
open Opaal.Net List
open Opaal.Number
open Opaal.Text

/-! ## Hosts -/

variable {host authority path : List Char} {port default : UInt16} {character : Char}

/-- The text of an IPv4 address is digits and dots. -/
theorem onlyDigitsAndDots_of_parse {address : Ipv4Addr} (parsed : Ipv4Addr.parse host = some address) :
    onlyDigitsAndDots host = true := by
  unfold onlyDigitsAndDots
  rw [all_eq_true]
  intro character member
  have char := Ipv4Addr.parse_chars parsed character member
  unfold isIpv4Char at char
  rw [isDigitOf_ten] at char
  exact char

/-- A name: in lower case, with labels, and not an address. -/
structure IsName (host : List Char) : Prop where
  letters : onlyDigitsAndDots host = false
  lower : host.map Char.toLower = host
  valid : validName host = true

inductive NormalHost : List Char → Prop
  | v4 (address : Ipv4Addr) : NormalHost address.toText
  | v6 (address : Ipv6Addr) : NormalHost address.toText
  | name {host : List Char} (isName : IsName host) : NormalHost host

theorem IsName.not_v4 (name : IsName host) : Ipv4Addr.parse host = none := by
  cases parsed : Ipv4Addr.parse host with
  | none => rfl
  | some =>
    have digits := onlyDigitsAndDots_of_parse parsed
    rw [name.letters] at digits
    cases digits

theorem IsName.chars (name : IsName host) :
    ∀ character ∈ host, isHostChar character = true ∨ character = '.' := by
  intro character member
  by_cases dot : character = '.'
  · exact .inr dot
  · obtain ⟨label, isLabel, inside⟩ := exists_splitOn member dot
    have valid := name.valid
    unfold validName at valid
    simp only [Bool.and_eq_true, all_eq_true] at valid
    have label := valid.2 label isLabel
    unfold validLabel at label
    simp only [Bool.and_eq_true, all_eq_true] at label
    exact .inl (label.1.1.2 character inside)

/-- What stands in a normal host: nothing that ends an authority or begins something else. -/
def isPlainChar (character : Char) : Bool := isIpv6Char character || isHostChar character || character == '.'

theorem NormalHost.chars (normal : NormalHost host) :
    ∀ character ∈ host, isPlainChar character = true := by
  intro character member
  unfold isPlainChar
  cases normal with
  | v4 address =>
    rw [isIpv6Char_of_ipv4 (address.toText_chars character member)]
    rfl
  | v6 address =>
    rw [address.toText_chars character member]
    rfl
  | name name =>
    rcases name.chars character member with host | rfl
    · rw [host, Bool.or_true]
      rfl
    · rfl

/-- A normal host has a colon just when it is the text of an IPv6 address. -/
theorem NormalHost.colon (normal : NormalHost host) (colon : ':' ∈ host) :
    ∃ address : Ipv6Addr, host = address.toText := by
  cases normal with
  | v4 address =>
    have char := address.toText_chars ':' colon
    cases char
  | v6 address => exact ⟨address, rfl⟩
  | name name =>
    rcases name.chars ':' colon with host | dot
    · cases host
    · cases dot

theorem NormalHost.ne_nil (normal : NormalHost host) : host ≠ [] := by
  cases normal with
  | v4 address =>
    intro empty
    have parsed := address.parse_toText
    rw [empty] at parsed
    cases parsed
  | v6 address =>
    intro empty
    have colon := address.toText_colon
    rw [empty] at colon
    cases colon
  | name name =>
    rintro rfl
    have letters := name.letters
    cases letters

/-- A host without a colon is read as it is. -/
theorem NormalHost.parseHost (normal : NormalHost host) (plain : ':' ∉ host) :
    parseHost host = .ok host := by
  unfold Operational.parseHost
  rw [if_neg normal.ne_nil]
  cases normal with
  | v4 address => rw [address.parse_toText]
  | v6 address => exact absurd address.toText_colon plain
  | name name =>
    rw [name.not_v4, name.letters, name.lower]
    exact if_pos name.valid

/-- A letter stays one in lower case. -/
theorem onlyDigitsAndDots_toLower (letters : onlyDigitsAndDots host = false) :
    onlyDigitsAndDots (host.map Char.toLower) = false := by
  unfold onlyDigitsAndDots at letters ⊢
  rw [all_eq_false] at letters ⊢
  obtain ⟨character, member, other⟩ := letters
  refine ⟨character.toLower, mem_map_of_mem member, ?_⟩
  by_cases upper : character.isUpper = true
  · have alpha : character.toLower.isAlpha = true := by
      rw [Char.isAlpha_toLower_eq_isAlpha]
      unfold Char.isAlpha
      rw [upper]
      rfl
    have letter : character.toLower.isUpper = true ∨ character.toLower.isLower = true := by
      unfold Char.isAlpha at alpha
      rw [Bool.or_eq_true] at alpha
      exact alpha
    simp only [Bool.or_eq_true, beq_iff_eq, not_or]
    refine ⟨?_, ?_⟩
    · intro digit
      rcases letter with letter | letter <;>
        simp only [Char.isDigit, Char.isUpper, Char.isLower, Bool.and_eq_true, decide_eq_true_eq, UInt32.le_iff_toNat_le]
          at digit letter <;>
        simp at digit letter <;> omega
    · intro dot
      rw [dot] at letter
      rcases letter with letter | letter <;> cases letter
  · rw [Char.toLower_eq_of_not_isUpper upper]
    exact other

theorem parseHost_normal {normal : List Char} (parsed : parseHost host = .ok normal) : NormalHost normal := by
  unfold parseHost at parsed
  split at parsed
  · cases parsed
  · split at parsed
    · next address _ =>
      cases parsed
      exact .v4 address
    · split at parsed
      · cases parsed
      · next letters =>
        dsimp only at parsed
        split at parsed
        · next valid =>
          cases parsed
          refine .name ⟨onlyDigitsAndDots_toLower (Bool.eq_false_iff.mpr letters), ?_, valid⟩
          rw [map_map]
          exact map_congr_left fun character _ => Char.toLower_toLower_eq_toLower character
        · cases parsed

/-! ## Authorities -/

theorem parsePort_ne_zero {text : List Char} (parsed : parsePort text = .ok port) : port ≠ 0 := by
  unfold parsePort at parsed
  split at parsed
  · cases parsed
  · next number isNumber =>
    split at parsed
    · cases parsed
    · next nonzero =>
      cases parsed
      have below : number < 65536 := by
        unfold parseUnsigned at isNumber
        dsimp only at isNumber
        split at isNumber
        · next digits =>
          cases isNumber
          exact digits.2.2
        · cases isNumber
      intro zero
      have same := congrArg UInt16.toNat zero
      rw [UInt16.toNat_ofNat', Nat.mod_eq_of_lt below] at same
      exact nonzero same

theorem parsePort_toDigits (nonzero : port ≠ 0) : parsePort (Nat.toDigits 10 port.toNat) = .ok port := by
  have number := parseUnsigned_toDigits (show port.toNat < 65536 from port.toNat_lt)
  have other : port.toNat ≠ 0 := fun zero => nonzero (UInt16.toNat_inj.mp zero)
  unfold parsePort
  rw [number]
  dsimp only
  rw [if_neg other, UInt16.ofNat_toNat]

/-- What an accepted authority is. -/
structure NormalAuthority (host : List Char) (port : UInt16) : Prop where
  host : NormalHost host
  port : port ≠ 0

theorem parseBracketed_normal {rest : List Char} (nonzero : default ≠ 0)
    (parsed : parseBracketed rest default = .ok (host, port)) : NormalAuthority host port := by
  unfold parseBracketed at parsed
  split at parsed
  · cases parsed
  · split at parsed
    · cases parsed
    · next address _ =>
      generalize (rest.dropWhile (· ≠ ']')).tail = suffix at parsed
      cases suffix with
      | nil =>
        cases parsed
        exact ⟨.v6 address, nonzero⟩
      | cons first text =>
        by_cases colon : first = ':'
        · subst colon
          obtain ⟨_, isPort, parsed⟩ := bind_ok parsed
          cases parsed
          exact ⟨.v6 address, parsePort_ne_zero isPort⟩
        · simp [bind, Except.bind, colon] at parsed

theorem splitPort_nonzero (nonzero : default ≠ 0) (split : splitPort authority default = .ok (host, port)) : port ≠ 0 := by
  unfold splitPort at split
  split at split
  · split at split
    · next text _ _ =>
      cases isPort : parsePort text with
      | error =>
        rw [isPort] at split
        cases split
      | ok =>
        rw [isPort] at split
        cases split
        exact parsePort_ne_zero isPort
    · cases split
      exact nonzero
  · cases split
    exact nonzero

theorem parseAuthority_normal (nonzero : default ≠ 0) (parsed : parseAuthority authority default = .ok (host, port)) : NormalAuthority host port := by
  unfold parseAuthority at parsed
  split at parsed
  · exact parseBracketed_normal nonzero parsed
  · obtain ⟨⟨text, _⟩, ports, parsed⟩ := bind_ok parsed
    obtain ⟨_, hosts, parsed⟩ := bind_ok parsed
    cases parsed
    exact ⟨parseHost_normal hosts, splitPort_nonzero nonzero ports⟩

theorem toDigits_plain {number : Nat} (other : isDigitOf 10 character = false) :
    character ∉ Nat.toDigits 10 number := by
  intro member
  have digit := toDigits_all (show 1 < 10 by decide) (by decide) number character member
  rw [other] at digit
  cases digit

/-- The port of a normal authority, when it is written, is read back. -/
theorem splitPort_text (plain : ':' ∉ host) (nonzero : port ≠ 0) (default : UInt16) :
    splitPort (if port = default then host else host ++ ':' :: Nat.toDigits 10 port.toNat) default = .ok (host, port) := by
  unfold splitPort
  by_cases same : port = default
  · rw [if_pos same, rsplitOnce_eq_none.mpr plain, same]
  · have digits : ':' ∉ Nat.toDigits 10 port.toNat := toDigits_plain (by decide)
    rw [if_neg same, rsplitOnce_append host digits]
    dsimp only
    rw [if_pos plain, parsePort_toDigits nonzero]
    rfl

theorem parseBracketed_text (address : Ipv6Addr) (nonzero : port ≠ 0) (default : UInt16) :
    parseBracketed (address.toText ++ ']' :: (if port = default then [] else ':' :: Nat.toDigits 10 port.toNat)) default =
      .ok (address.toText, port) := by
  have outside : ∀ character ∈ address.toText, decide (character ≠ ']') = true := by
    intro character member
    have char := address.toText_chars character member
    rw [decide_eq_true_eq]
    rintro rfl
    cases char
  generalize isSuffix : (if port = default then [] else ':' :: Nat.toDigits 10 port.toNat) = suffix
  have bracket : ∀ next ∈ (']' :: suffix).head?, decide (next ≠ ']') = false := by
    intro next isNext
    cases isNext
    decide
  obtain ⟨taken, dropped⟩ := takeWhile_digits outside bracket
  unfold parseBracketed
  rw [if_neg (not_not.mpr (mem_append_right _ mem_cons_self)), taken, dropped, address.parse_toText]
  subst isSuffix
  by_cases same : port = default
  · rw [if_pos same, same]
    rfl
  · rw [if_neg same]
    show (parsePort (Nat.toDigits 10 port.toNat) >>= fun port => pure (address.toText, port)) = _
    rw [parsePort_toDigits nonzero]
    rfl

theorem NormalAuthority.parse {url : Url} (normal : NormalAuthority url.host url.port) :
    parseAuthority url.authorityText (Url.defaultPort url.scheme) = .ok (url.host, url.port) := by
  unfold Url.authorityText
  by_cases colon : ':' ∈ url.host
  · obtain ⟨address, isAddress⟩ := normal.host.colon colon
    have read := parseBracketed_text address normal.port (Url.defaultPort url.scheme)
    rw [if_pos colon, isAddress]
    split
    · next same =>
      rw [if_pos same] at read
      exact read
    · next different =>
      rw [if_neg different] at read
      rw [cons_append, append_assoc]
      exact read
  · rw [if_neg colon]
    have ports := splitPort_text colon normal.port (Url.defaultPort url.scheme)
    have hosts := normal.host.parseHost colon
    have first : ∀ rest, (if url.port = Url.defaultPort url.scheme then url.host
        else url.host ++ ':' :: Nat.toDigits 10 url.port.toNat) ≠ '[' :: rest := by
      intro rest same
      have head : '[' ∈ url.host := by
        cases isHost : url.host with
        | nil => exact absurd isHost normal.host.ne_nil
        | cons =>
          rw [isHost] at same
          split at same <;> cases same <;> exact mem_cons_self
      have char := normal.host.chars '[' head
      cases char
    generalize (if url.port = Url.defaultPort url.scheme then url.host
      else url.host ++ ':' :: Nat.toDigits 10 url.port.toNat) = authority at ports first ⊢
    unfold parseAuthority
    split
    · next rest => exact absurd rfl (first rest)
    · rw [ports]
      show (parseHost url.host >>= fun host => pure (host, url.port)) = _
      rw [hosts]
      rfl

/-! ## Paths -/

/-- A hexadecimal digit keeps its value in upper case, where it stays and is not unsafe. -/
theorem hexDigit_toUpper (digit : isHexDigit character = true) :
    isHexDigit character.toUpper = true ∧ hexValue character.toUpper = hexValue character ∧
      isUnsafe character.toUpper = false ∧ character.toUpper ≠ '#' := by
  have ascii : character.toNat < 128 := by
    unfold isHexDigit isDigitOf toDigit at digit
    by_contra wide
    have none : digitValue character = none := by
      unfold digitValue
      rw [if_neg, if_neg, if_neg]
      · rintro ⟨_, upper⟩
        have upper : character.toNat ≤ 90 := upper
        omega
      · rintro ⟨_, upper⟩
        have upper : character.toNat ≤ 122 := upper
        omega
      · rintro ⟨_, upper⟩
        have upper : character.toNat ≤ 57 := upper
        omega
    rw [none] at digit
    cases digit
  have all : ((List.range 128).all fun number =>
      let character := Char.ofNat number
      !isHexDigit character || (isHexDigit character.toUpper && hexValue character.toUpper == hexValue character &&
        !isUnsafe character.toUpper && character.toUpper != '#')) = true := by
    decide +kernel
  have tested := @Text.forall_ascii (fun character =>
    !isHexDigit character || (isHexDigit character.toUpper && hexValue character.toUpper == hexValue character &&
      !isUnsafe character.toUpper && character.toUpper != '#')) all character ascii
  simp only [digit, Bool.not_true, Bool.false_or, Bool.and_eq_true, beq_iff_eq, Bool.not_eq_true', bne_iff_ne] at tested
  exact ⟨tested.1.1.1, tested.1.1.2, tested.1.2, tested.2⟩

/-- A path that normalising leaves as it is. -/
structure NormalPath (path : List Char) : Prop where
  fixed : normalizePathAndQuery path = .ok path
  safe : ∀ character ∈ path, isUnsafe character = false
  plain : '#' ∉ path

theorem NormalPath.cons (normal : NormalPath path) (safe : isUnsafe character = false) (other : character ≠ '%')
    (plain : character ≠ '#') :
    NormalPath (character :: path) := by
  refine ⟨?_, ?_, ?_⟩
  · unfold normalizePathAndQuery
    rw [safe, if_neg (by decide), if_neg other, normal.fixed]
    rfl
  · intro held member
    rcases mem_cons.mp member with rfl | later
    · exact safe
    · exact normal.safe held later
  · intro member
    rcases mem_cons.mp member with same | later
    · exact plain same.symm
    · exact normal.plain later

theorem NormalPath.escape {high low : Char} (normal : NormalPath path) (isHigh : isHexDigit high = true)
    (isLow : isHexDigit low = true) (allowed : isUnsafe (Char.ofNat (decodedByte high low)) = false) :
    NormalPath ('%' :: high.toUpper :: low.toUpper :: path) := by
  obtain ⟨highDigit, highValue, highSafe, highPlain⟩ := hexDigit_toUpper isHigh
  obtain ⟨lowDigit, lowValue, lowSafe, lowPlain⟩ := hexDigit_toUpper isLow
  have same : decodedByte high.toUpper low.toUpper = decodedByte high low := by
    unfold decodedByte
    rw [highValue, lowValue]
  refine ⟨?_, ?_, ?_⟩
  · unfold normalizePathAndQuery
    dsimp only
    rw [highDigit, lowDigit, same, allowed, normal.fixed, Char.toUpper_toUpper_eq_toUpper,
      Char.toUpper_toUpper_eq_toUpper]
    rfl
  · intro held member
    simp only [mem_cons] at member
    rcases member with rfl | rfl | rfl | later
    · decide
    · exact highSafe
    · exact lowSafe
    · exact normal.safe held later
  · intro member
    simp only [mem_cons] at member
    rcases member with same | same | same | later
    · cases same
    · exact highPlain same.symm
    · exact lowPlain same.symm
    · exact normal.plain later

theorem map_ok {α β : Type} {result : Except UrlError α} {change : α → β} {value : β}
    (mapped : result.map change = .ok value) : ∃ held, result = .ok held ∧ change held = value := by
  cases result with
  | error => cases mapped
  | ok held => exact ⟨held, rfl, Except.ok.inj mapped⟩

theorem normalizePathAndQuery_normal {output : List Char} (plain : '#' ∉ path)
    (normalized : normalizePathAndQuery path = .ok output) : NormalPath output := by
  fun_induction normalizePathAndQuery path generalizing output with
  | case1 =>
    cases normalized
    exact ⟨rfl, fun _ none => (by cases none), not_mem_nil⟩
  | case7 _ _ text hexadecimal allowed _ ih =>
    obtain ⟨held, isHeld, rfl⟩ := map_ok normalized
    have less : '#' ∉ text := fun member =>
      plain (mem_cons_of_mem _ (mem_cons_of_mem _ (mem_cons_of_mem _ member)))
    simp only [Bool.or_eq_true, Bool.not_eq_true', not_or, Bool.not_eq_false] at hexadecimal
    exact (ih less isHeld).escape hexadecimal.1 hexadecimal.2 (Bool.eq_false_iff.mpr allowed)
  | case8 character text safe other ih =>
    obtain ⟨_, isHeld, rfl⟩ := map_ok normalized
    have less : '#' ∉ text := fun member => plain (mem_cons_of_mem _ member)
    have different : character ≠ '#' := by
      rintro rfl
      exact plain mem_cons_self
    exact (ih less isHeld).cons (Bool.eq_false_iff.mpr safe) other different
  | case2 | case3 | case4 | case5 | case6 => cases normalized

theorem normalizePathAndQuery_rooted {output : List Char} (normalized : normalizePathAndQuery ('/' :: path) = .ok output) :
    ∃ rest, output = '/' :: rest := by
  unfold normalizePathAndQuery at normalized
  obtain ⟨held, _, rfl⟩ := map_ok normalized
  exact ⟨held, rfl⟩

/-! ## URLs -/

namespace Url

/-- What every accepted URL is. -/
structure Normal (url : Url) : Prop where
  authority : NormalAuthority url.host url.port
  path : NormalPath url.pathAndQuery
  rooted : ∃ rest, url.pathAndQuery = '/' :: rest

theorem splitScheme_eq {input rest : List Char} {scheme : Scheme} {port : UInt16}
    (split : splitScheme input = some (scheme, rest, port)) :
    input = schemeText scheme ++ ("://".toList ++ rest) ∧ port = defaultPort scheme := by
  unfold splitScheme at split
  split at split
  · next found =>
    cases split
    have whole := isPrefixOf?_eq_some.mp found
    exact ⟨whole, rfl⟩
  · rw [Option.map_eq_some_iff] at split
    obtain ⟨_, isFound, same⟩ := split
    cases same
    have whole := isPrefixOf?_eq_some.mp isFound
    exact ⟨whole, rfl⟩

theorem splitScheme_text (scheme : Scheme) (rest : List Char) :
    splitScheme (schemeText scheme ++ ("://".toList ++ rest)) = some (scheme, rest, defaultPort scheme) := by
  unfold splitScheme
  cases scheme with
  | https =>
    have found : "https://".toList.isPrefixOf? (schemeText .https ++ ("://".toList ++ rest)) = some rest :=
      isPrefixOf?_eq_some.mpr rfl
    rw [found]
    rfl
  | http =>
    have found : "http://".toList.isPrefixOf? (schemeText .http ++ ("://".toList ++ rest)) = some rest :=
      isPrefixOf?_eq_some.mpr rfl
    have other : "https://".toList.isPrefixOf? (schemeText .http ++ ("://".toList ++ rest)) = none := by
      cases prefixed : "https://".toList.isPrefixOf? (schemeText .http ++ ("://".toList ++ rest)) with
      | none => rfl
      | some =>
        have same := isPrefixOf?_eq_some.mp prefixed
        simp [schemeText] at same
    rfl

theorem defaultPort_ne_zero (scheme : Scheme) : defaultPort scheme ≠ 0 := by
  cases scheme <;> decide

/-- The rest after an authority is a path that starts with a slash. -/
theorem rootedPath_eq (rest : List Char) : ∃ path, rootedPath (rest.dropWhile isAuthorityChar) = '/' :: path := by
  cases left : rest.dropWhile isAuthorityChar with
  | nil => exact ⟨[], rfl⟩
  | cons first path =>
    have ends : isAuthorityChar first = false := by
      have head := List.head?_dropWhile_not isAuthorityChar rest
      rw [left] at head
      simpa using head
    unfold isAuthorityChar at ends
    by_cases slash : first = '/'
    · subst slash
      exact ⟨path, rfl⟩
    · by_cases query : first = '?'
      · subst query
        exact ⟨'?' :: path, rfl⟩
      · simp [slash, query] at ends

theorem mem_rootedPath {character : Char} {path : List Char} (member : character ∈ rootedPath path) :
    character = '/' ∨ character ∈ path := by
  unfold rootedPath at member
  split at member
  · exact .inl (mem_singleton.mp member)
  · exact mem_cons.mp member
  · exact .inr member

variable {url : Url}

theorem parse_normal {input : List Char} (parsed : parse input = .ok url) : url.Normal := by
  unfold parse at parsed
  split at parsed
  · cases parsed
  · next plain =>
    split at parsed
    · cases parsed
    · next scheme rest port split =>
      obtain ⟨whole, isPort⟩ := splitScheme_eq split
      have nonzero : port ≠ 0 := by
        rw [isPort]
        exact defaultPort_ne_zero scheme
      dsimp only at parsed
      split at parsed
      · cases parsed
      · obtain ⟨_, authority, parsed⟩ := bind_ok parsed
        obtain ⟨_, path, parsed⟩ := bind_ok parsed
        cases parsed
        obtain ⟨_, isRooted⟩ := rootedPath_eq rest
        have unfragmented : '#' ∉ rootedPath (rest.dropWhile isAuthorityChar) := by
          intro member
          rcases mem_rootedPath member with slash | inside
          · cases slash
          · refine plain ?_
            rw [whole]
            exact mem_append_right _ (mem_append_right _ ((dropWhile_suffix _).mem inside))
        refine ⟨parseAuthority_normal nonzero authority, normalizePathAndQuery_normal unfragmented path, ?_⟩
        rw [isRooted] at path
        exact normalizePathAndQuery_rooted path

/-! ### Reading back -/

theorem authorityText_chars (normal : url.Normal) :
    ∀ character ∈ url.authorityText, isAuthorityChar character = true ∧ character ≠ '@' ∧ character ≠ '#' := by
  have plain : ∀ character, isPlainChar character = true →
      isAuthorityChar character = true ∧ character ≠ '@' ∧ character ≠ '#' := by
    intro character char
    refine ⟨?_, ?_, ?_⟩
    · unfold isAuthorityChar
      rw [Bool.and_eq_true, bne_iff_ne, bne_iff_ne]
      constructor <;> (rintro rfl; cases char)
    · rintro rfl
      cases char
    · rintro rfl
      cases char
  have host : ∀ character ∈ url.host, isAuthorityChar character = true ∧ character ≠ '@' ∧ character ≠ '#' :=
    fun character member => plain character (normal.authority.host.chars character member)
  have bracketed : ∀ character ∈ (if ':' ∈ url.host then '[' :: (url.host ++ [']']) else url.host),
      isAuthorityChar character = true ∧ character ≠ '@' ∧ character ≠ '#' := by
    intro character member
    split at member
    · simp only [mem_cons, mem_append, not_mem_nil, or_false] at member
      rcases member with rfl | inside | rfl
      · decide
      · exact host character inside
      · decide
    · exact host character member
  intro character member
  unfold authorityText at member
  dsimp only at member
  split at member
  · exact bracketed character member
  · rcases mem_append.mp member with front | back
    · exact bracketed character front
    · rcases mem_cons.mp back with rfl | digit
      · decide
      · refine plain character ?_
        unfold isPlainChar
        have decimal := toDigits_all (show 1 < 10 by decide) (by decide) _ character digit
        rw [isIpv6Char_of_digit (isDigitOf_of_le (by decide) decimal)]
        rfl

theorem authorityText_ne_nil (normal : url.Normal) : url.authorityText ≠ [] := by
  unfold authorityText
  dsimp only
  split
  · split
    · exact cons_ne_nil _ _
    · exact normal.authority.host.ne_nil
  · exact append_ne_nil_of_right_ne_nil _ (cons_ne_nil _ _)

theorem Normal.parse_render (normal : url.Normal) : parse url.render = .ok url := by
  obtain ⟨path, isRooted⟩ := normal.rooted
  have authority := authorityText_chars normal
  have slash : ∀ next ∈ url.pathAndQuery.head?, isAuthorityChar next = false := by
    intro next isNext
    rw [isRooted] at isNext
    cases isNext
    rfl
  obtain ⟨taken, dropped⟩ := takeWhile_digits (fun character member => (authority character member).1) slash
  have text : url.render = schemeText url.scheme ++ ("://".toList ++ (url.authorityText ++ url.pathAndQuery)) := by
    unfold render
    simp
  have plain : '#' ∉ url.render := by
    rw [text]
    intro member
    rcases mem_append.mp member with scheme | rest
    · cases isScheme : url.scheme <;> rw [isScheme] at scheme <;> revert scheme <;> decide
    · rcases mem_append.mp rest with marks | rest
      · revert marks
        decide
      · rcases mem_append.mp rest with inside | inside
        · exact (authority '#' inside).2.2 rfl
        · exact normal.path.plain inside
  have rooted : rootedPath url.pathAndQuery = url.pathAndQuery := by
    rw [isRooted]
    rfl
  have credentials : ¬(url.authorityText = [] ∨ '@' ∈ url.authorityText) := by
    rintro (empty | member)
    · exact authorityText_ne_nil normal empty
    · exact (authority '@' member).2.1 rfl
  unfold parse
  rw [if_neg plain, text, splitScheme_text]
  dsimp only
  rw [taken, dropped, if_neg credentials, normal.authority.parse, rooted]
  rw [normal.path.fixed]
  rfl

/-! ### The adapter's own checks -/

theorem Normal.validConnectHost (normal : url.Normal) : Operational.validConnectHost url.host = true := by
  unfold Operational.validConnectHost
  have host := normal.authority.host
  generalize url.host = host' at host ⊢
  cases host with
  | v4 => rw [IpAddr.parse_v4]; rfl
  | v6 => rw [IpAddr.parse_v6]; rfl
  | name name =>
    split
    · rfl
    · rw [name.letters, if_neg (by decide), name.valid, Bool.and_true]
      exact decide_eq_true (NormalHost.name name).ne_nil

theorem Normal.validPathAndQuery (normal : url.Normal) :
    Operational.validPathAndQuery url.pathAndQuery = true := by
  obtain ⟨path, isRooted⟩ := normal.rooted
  unfold Operational.validPathAndQuery
  rw [Bool.and_eq_true, all_eq_true]
  refine ⟨?_, ?_⟩
  · rw [isRooted]
    rfl
  · intro character member
    rw [normal.path.safe character member]
    rfl

end Url

end Opaal.Operational
