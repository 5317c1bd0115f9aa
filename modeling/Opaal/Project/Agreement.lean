import Opaal.Operational.UrlNormal
import Opaal.Project.Endpoint

/-!
# The manifest and the request agree on a URL

Whatever the manifest accepts, the request parses: with the same scheme and with a host that is the same
address, or the same name.
-/

namespace Opaal.Project

open Opaal.Net List
open Opaal.Number
open Opaal.Operational
open Opaal.Operational.Url
open Opaal.Text
open Bool (and_eq_true not_eq_true' or_eq_true)

/-! ## Hosts -/

/-- The manifest keeps the host as it is written and the request writes it anew. -/
structure SameHost (written normal : List Char) : Prop where
  v4 : Ipv4Addr.parse normal = Ipv4Addr.parse written
  v6 : Ipv6Addr.parse normal = Ipv6Addr.parse written

theorem SameHost.loopback {written normal : List Char} (same : SameHost written normal) :
    isLoopbackText normal = isLoopbackText written := by
  unfold isLoopbackText
  rw [same.v4, same.v6]

variable {host text bracketed authority : List Char} {port : Option (List Char)} {parsed : ParsedHttpUrl} {url : Url}
  {endpoint checked : EndpointDeclaration}

theorem parse_v4_plain {address : Ipv4Addr} (parsed : Ipv4Addr.parse host = some address) :
    ':' ∉ host := by
  intro colon
  have char := Ipv4Addr.parse_chars parsed ':' colon
  cases char

theorem sameHost_v4 {address : Ipv4Addr} (parsed : Ipv4Addr.parse host = some address) :
    SameHost host address.toText := by
  refine ⟨?_, ?_⟩
  · rw [address.parse_toText, parsed]
  · rw [Ipv6Addr.parse_v4, Ipv6Addr.parse_plain (parse_v4_plain parsed)]

theorem sameHost_v6 {address : Ipv6Addr} (parsed : Ipv6Addr.parse host = some address) :
    SameHost host address.toText := by
  have other : Ipv4Addr.parse host = none := by
    cases isV4 : Ipv4Addr.parse host with
    | none => rfl
    | some =>
      rw [Ipv6Addr.parse_plain (parse_v4_plain isV4)] at parsed
      cases parsed
  refine ⟨?_, ?_⟩
  · rw [Ipv4Addr.parse_v6, other]
  · rw [address.parse_toText, parsed]

/-- A name of the manifest is a name of the request, as it is. -/
theorem isName_of_isDnsName (dns : isDnsName host = true) : IsName host := by
  unfold isDnsName at dns
  simp only [and_eq_true, not_eq_true', decide_eq_true_eq, all_eq_true, ne_eq] at dns
  obtain ⟨⟨⟨⟨⟨nonempty, letters⟩, short⟩, last⟩, chars⟩, labels⟩ := dns
  have letter : ∀ character ∈ host, isHostChar character = true ∨ character = '.' := by
    intro character member
    have char := chars character member
    rw [or_eq_true, beq_iff_eq] at char
    exact char
  refine ⟨letters, ?_, ?_⟩
  · refine (map_congr_left ?_).trans (map_id host)
    intro character member
    apply Char.toLower_eq_of_not_isUpper
    intro upper
    rcases letter character member with char | rfl
    · unfold isHostChar at char
      simp only [or_eq_true, beq_iff_eq] at char
      rcases char with (lower | digit) | rfl
      · exact Char.not_isLower_of_isUpper upper lower
      · simp only [Char.isDigit, Char.isUpper, and_eq_true, decide_eq_true_eq, UInt32.le_iff_toNat_le] at digit upper
        simp at digit upper
        omega
      · cases upper
    · cases upper
  · unfold validName
    simp only [and_eq_true, decide_eq_true_eq, all_eq_true, ne_eq]
    refine ⟨⟨short, last⟩, ?_⟩
    intro label isLabel
    obtain ⟨⟨⟨filled, size⟩, starts⟩, ends⟩ := labels label isLabel
    have inside := mem_splitOn isLabel
    have hostChar : ∀ character ∈ label, isHostChar character = true := by
      intro character member
      have found := inside character member
      exact (letter character found.1).resolve_right found.2
    have alphanumeric : ∀ character ∈ label, character ≠ '-' → character.isAlphanum = true := by
      intro character member noDash
      have char := hostChar character member
      unfold isHostChar at char
      simp only [or_eq_true, beq_iff_eq] at char
      unfold Char.isAlphanum Char.isAlpha
      rcases char with (lower | digit) | dash
      · rw [lower, Bool.or_true, Bool.true_or]
      · rw [digit, Bool.or_true]
      · exact absurd dash noDash
    unfold validLabel
    simp only [and_eq_true, decide_eq_true_eq, all_eq_true, ne_eq]
    refine ⟨⟨⟨⟨filled, size⟩, hostChar⟩, ?_⟩, ?_⟩
    · cases isFirst : label.head? with
      | none => exact absurd (List.head?_eq_none_iff.mp isFirst) filled
      | some first =>
        have different : first ≠ '-' := fun dash => starts (dash ▸ isFirst)
        exact alphanumeric first (mem_of_mem_head? isFirst) different
    · cases isLast : label.getLast? with
      | none => exact absurd (List.getLast?_eq_none_iff.mp isLast) filled
      | some final =>
        have different : final ≠ '-' := fun dash => ends (dash ▸ isLast)
        exact alphanumeric final (mem_of_getLast? isLast) different

/-- A host of the manifest without a colon is parsed, and is the same. -/
theorem parseHost_of_valid (valid : validUrlHost host = true) (plain : ':' ∉ host) :
    ∃ normal, parseHost host = .ok normal ∧ SameHost host normal := by
  unfold validUrlHost at valid
  rw [Ipv6Addr.parse_plain plain] at valid
  cases isV4 : Ipv4Addr.parse host with
  | some address =>
    refine ⟨address.toText, ?_, sameHost_v4 isV4⟩
    unfold parseHost
    rw [isV4, if_neg]
    rintro rfl
    cases isV4
  | none =>
    rw [isV4] at valid
    have name : IsName host := isName_of_isDnsName (by simpa using valid)
    exact ⟨host, (NormalHost.name name).parseHost plain, rfl, rfl⟩

/-! ## Authorities -/

theorem parsePort_of_valid (valid : validPort text = true) : ∃ port, parsePort text = .ok port := by
  unfold validPort at valid
  simp only [and_eq_true] at valid
  cases isNumber : parseUnsigned 65536 text with
  | none =>
    rw [isNumber] at valid
    cases valid.2
  | some number =>
    rw [isNumber] at valid
    have nonzero : number ≠ 0 := of_decide_eq_true valid.2
    refine ⟨UInt16.ofNat number, ?_⟩
    unfold parsePort
    rw [isNumber]
    exact if_neg nonzero

/-- What stands before the first bracket is taken, what stands behind it is left. -/
theorem bracket_split {inside suffix : List Char} (parts : splitOnce [']'] bracketed = some (inside, suffix)) :
    ']' ∈ bracketed ∧ bracketed.takeWhile (· ≠ ']') = inside ∧ (bracketed.dropWhile (· ≠ ']')).tail = suffix := by
  have whole := splitOnce_eq parts
  have first := splitOnce_first parts
  have outside : ∀ character ∈ inside, decide (character ≠ ']') = true := by
    intro character member
    rw [decide_eq_true_eq]
    rintro rfl
    exact first member
  have bracket : ∀ next ∈ (']' :: suffix).head?, decide (next ≠ ']') = false := by
    intro next isNext
    cases isNext
    decide
  obtain ⟨taken, dropped⟩ := takeWhile_digits outside bracket
  rw [whole]
  refine ⟨mem_append_right _ mem_cons_self, taken, ?_⟩
  show (List.dropWhile _ (inside ++ ']' :: suffix)).tail = suffix
  rw [dropped]
  rfl

theorem parseBracketed_of_split (default : UInt16)
    (split : splitAuthority ('[' :: bracketed) = some (host, port)) (ports : ∀ text ∈ port, validPort text = true) :
    ∃ normal number, parseBracketed bracketed default = .ok (normal, number) ∧ SameHost host normal := by
  unfold splitAuthority at split
  simp only [Option.bind_eq_bind, Option.bind_eq_some_iff] at split
  obtain ⟨⟨inside, suffix⟩, parts, split⟩ := split
  obtain ⟨closed, taken, dropped⟩ := bracket_split parts
  cases isV6 : Ipv6Addr.parse inside with
  | none =>
    rw [isV6] at split
    cases split
  | some address =>
    rw [isV6, if_neg (by simp)] at split
    unfold parseBracketed
    rw [if_neg (not_not.mpr closed), taken, dropped, isV6]
    cases suffix with
    | nil =>
      cases split
      exact ⟨_, _, rfl, sameHost_v6 isV6⟩
    | cons first text =>
      by_cases colon : first = ':'
      · subst colon
        cases split
        obtain ⟨number, parsed⟩ := parsePort_of_valid (ports text rfl)
        refine ⟨address.toText, number, ?_, sameHost_v6 isV6⟩
        show (parsePort text >>= fun port => pure (address.toText, port)) = _
        rw [parsed]
        rfl
      · simp [colon] at split

theorem splitPort_of_split (default : UInt16)
    (unbracketed : ∀ rest, authority ≠ '[' :: rest) (split : splitAuthority authority = some (host, port))
    (ports : ∀ text ∈ port, validPort text = true) :
    ':' ∉ host ∧ ∃ number, splitPort authority default = .ok (host, number) := by
  unfold splitAuthority at split
  split at split
  · next bracketed => exact absurd rfl (unbracketed bracketed)
  · unfold splitPort
    cases parts : rsplitOnce ':' authority with
    | none =>
      rw [parts] at split
      cases split
      exact ⟨rsplitOnce_eq_none.mp parts, default, rfl⟩
    | some both =>
      obtain ⟨_, text⟩ := both
      rw [parts] at split
      dsimp only at split ⊢
      split at split
      · cases split
      · next plain =>
        cases split
        obtain ⟨number, parsed⟩ := parsePort_of_valid (ports text rfl)
        refine ⟨plain, number, ?_⟩
        rw [if_pos plain, parsed]
        rfl

theorem parseAuthority_of_split (default : UInt16) (split : splitAuthority authority = some (host, port))
    (valid : validUrlHost host = true) (ports : ∀ text ∈ port, validPort text = true) :
    ∃ normal number, parseAuthority authority default = .ok (normal, number) ∧ SameHost host normal := by
  unfold parseAuthority
  split
  · exact parseBracketed_of_split default split ports
  · next unbracketed =>
    obtain ⟨plain, number, isPort⟩ := splitPort_of_split default unbracketed split ports
    obtain ⟨normal, isHost, same⟩ := parseHost_of_valid valid plain
    refine ⟨normal, number, ?_, same⟩
    rw [isPort]
    show (parseHost host >>= fun host => pure (host, number)) = _
    rw [isHost]
    rfl

/-! ## Paths -/

theorem isAuthorityChar_hex {character : Char} (digit : isHexDigit character = true) : isAuthorityChar character = true := by
  unfold isAuthorityChar
  rw [and_eq_true, bne_iff_ne, bne_iff_ne]
  constructor <;> (rintro rfl; cases digit)

/-- No escape reaches from the authority into the path. -/
theorem validUrlRemainder_path {remainder : List Char} (valid : validUrlRemainder remainder = true) :
    validUrlRemainder (remainder.dropWhile isAuthorityChar) = true := by
  fun_induction validUrlRemainder remainder with
  | case1 => exact valid
  | case2 => cases valid
  | case3 high low text _ ih =>
    simp only [and_eq_true] at valid
    have inside : ('%' :: high :: low :: text).dropWhile isAuthorityChar = text.dropWhile isAuthorityChar := by
      rw [dropWhile_cons_of_pos (by decide), dropWhile_cons_of_pos (isAuthorityChar_hex valid.1.1.1.1.1),
        dropWhile_cons_of_pos (isAuthorityChar_hex valid.1.1.1.1.2)]
    rw [inside]
    exact ih valid.2
  | case4 => cases valid
  | case5 _ _ safe other ih =>
    rw [dropWhile_cons]
    split
    · exact ih valid
    · unfold validUrlRemainder
      rw [if_neg safe, if_neg other]
      exact valid

/-- An escape of the manifest is in upper case, where its value is the same. -/
theorem asciiHexValue_eq {character : Char} (digit : isHexDigit character = true) (upper : character.isLower = false) :
    asciiHexValue character = hexValue character ∧ hexValue character < 16 := by
  unfold isHexDigit isDigitOf toDigit digitValue at digit
  unfold asciiHexValue hexValue toDigit digitValue
  split
  · next decimal =>
    have small : character.toNat ≤ 57 := decimal.2
    have below : character.toNat - '0'.toNat < 16 := by
      show character.toNat - 48 < 16
      omega
    rw [Option.filter_some, if_pos (decide_eq_true below)]
    exact ⟨rfl, below⟩
  · next other =>
    rw [if_neg other] at digit
    have notLower : ¬('a' ≤ character ∧ character ≤ 'z') := by
      intro lower
      have isLower : character.isLower = true := by
        unfold Char.isLower
        rw [and_eq_true, decide_eq_true_eq, decide_eq_true_eq]
        exact lower
      rw [upper] at isLower
      cases isLower
    rw [if_neg notLower] at digit ⊢
    split at digit
    · next letter =>
      rw [Option.filter_some] at digit
      split at digit
      · next below =>
        have below := of_decide_eq_true below
        have isF : character.toNat ≤ 70 := by
          have below : character.toNat - 65 + 10 < 16 := below
          omega
        rw [if_pos letter, Option.filter_some, if_pos (decide_eq_true below), if_pos ⟨letter.1, isF⟩]
        exact ⟨rfl, below⟩
      · cases digit
    · cases digit

/-- What may be escaped in the manifest is safe. -/
theorem escape_safe {high low : Char} (isHigh : isHexDigit high = true) (isLow : isHexDigit low = true)
    (highUpper : high.isLower = false) (lowUpper : low.isLower = false)
    (allowed : forbiddenEscape (asciiHexValue high * 16 + asciiHexValue low) = false) :
    isUnsafe (Char.ofNat (decodedByte high low)) = false := by
  obtain ⟨sameHigh, smallHigh⟩ := asciiHexValue_eq isHigh highUpper
  obtain ⟨sameLow, smallLow⟩ := asciiHexValue_eq isLow lowUpper
  rw [sameHigh, sameLow] at allowed
  unfold decodedByte
  have below : hexValue high * 16 + hexValue low < 256 := by omega
  generalize hexValue high * 16 + hexValue low = byte at allowed below ⊢
  have all : ∀ byte < 256, forbiddenEscape byte = false → isUnsafe (Char.ofNat byte) = false := by decide +kernel
  exact all byte below allowed

theorem normalize_of_valid {path : List Char} (valid : validUrlRemainder path = true) :
    ∃ output, normalizePathAndQuery path = .ok output := by
  fun_induction validUrlRemainder path with
  | case1 => exact ⟨[], rfl⟩
  | case2 => cases valid
  | case3 high low _ _ ih =>
    simp only [and_eq_true, not_eq_true'] at valid
    obtain ⟨⟨⟨⟨⟨isHigh, isLow⟩, highUpper⟩, lowUpper⟩, allowed⟩, rest⟩ := valid
    obtain ⟨output, isOutput⟩ := ih rest
    refine ⟨'%' :: high.toUpper :: low.toUpper :: output, ?_⟩
    unfold normalizePathAndQuery
    rw [if_neg (by decide), if_pos rfl]
    dsimp only
    rw [isHigh, isLow, if_neg (by decide), escape_safe isHigh isLow highUpper lowUpper allowed, if_neg (by decide), isOutput]
    rfl
  | case4 => cases valid
  | case5 character _ safe other ih =>
    obtain ⟨output, isOutput⟩ := ih valid
    have isSafe : isUnsafe character = false := by
      rw [or_eq_true, not_or] at safe
      exact Bool.eq_false_iff.mpr safe.2
    refine ⟨character :: output, ?_⟩
    unfold normalizePathAndQuery
    rw [isSafe, if_neg (by decide), if_neg other, isOutput]
    rfl

theorem validUrlRemainder_rooted {path : List Char} (valid : validUrlRemainder path = true) :
    validUrlRemainder (Url.rootedPath path) = true := by
  unfold Url.rootedPath
  split
  · decide
  · unfold validUrlRemainder
    exact valid
  · exact valid

/-! ## URLs -/

/-- What a parse of the manifest has read. -/
theorem parseHttpUrl_some (accepted : parseHttpUrl text = some parsed) :
    '#' ∉ text ∧ ∃ remainder port, splitOnce "://".toList text = some (parsed.scheme, remainder) ∧
      (parsed.scheme = "http".toList ∨ parsed.scheme = "https".toList) ∧ validUrlRemainder remainder = true ∧
      ¬(remainder.takeWhile isAuthorityChar = [] ∨ '@' ∈ remainder.takeWhile isAuthorityChar) ∧
      splitAuthority (remainder.takeWhile isAuthorityChar) = some (parsed.host, port) ∧
      validUrlHost parsed.host = true ∧ ∀ text ∈ port, validPort text = true := by
  unfold parseHttpUrl at accepted
  simp only [Option.bind_eq_bind, Option.bind_eq_some_iff, Option.ite_none_left_eq_some] at accepted
  obtain ⟨plain, ⟨_, remainder⟩, parts, schemes, remains, authority, ⟨_, port⟩, split, checked, made⟩ := accepted
  cases made
  simp only [or_eq_true, not_or, not_eq_true', Bool.not_eq_false] at checked remains plain
  refine ⟨?_, remainder, port, parts, ?_, remains, authority, split, checked.1.2, ?_⟩
  · simpa using plain.2
  · by_contra neither
    rw [not_or] at neither
    exact schemes neither
  · intro text isPort
    rw [Option.mem_def.mp isPort] at checked
    simpa using checked.2

theorem agreement (accepted : parseHttpUrl text = some parsed) :
    ∃ url, Url.parse text = .ok url ∧ schemeText url.scheme = parsed.scheme ∧ SameHost parsed.host url.host := by
  obtain ⟨plain, _, _, parts, schemes, remains, authority, split, valid, ports⟩ := parseHttpUrl_some accepted
  have whole := splitOnce_eq parts
  obtain ⟨scheme, isScheme⟩ : ∃ scheme, schemeText scheme = parsed.scheme := by
    rcases schemes with http | https
    · exact ⟨.http, http.symm⟩
    · exact ⟨.https, https.symm⟩
  obtain ⟨host, number, isAuthority, same⟩ := parseAuthority_of_split (Url.defaultPort scheme) split valid ports
  obtain ⟨path, isPath⟩ := normalize_of_valid (validUrlRemainder_rooted (validUrlRemainder_path remains))
  refine ⟨⟨scheme, host, number, path⟩, ?_, isScheme, same⟩
  unfold Url.parse
  rw [if_neg plain, whole, ← isScheme, Url.splitScheme_text]
  dsimp only
  rw [if_neg authority, isAuthority]
  rw [isPath]
  rfl

/-- Only a plain URL is checked for an address of the machine itself. -/
theorem isLiteralLoopback_iff (accepted : parseHttpUrl text = some parsed) (isScheme : schemeText url.scheme = parsed.scheme)
    (same : SameHost parsed.host url.host) :
    isLiteralLoopback text = true ↔ url.scheme = .http ∧ url.isLiteralLoopback = true := by
  have host : isLoopbackText url.host = isLoopbackText parsed.host := same.loopback
  unfold isLiteralLoopback Url.isLiteralLoopback
  rw [accepted, Option.any_some, and_eq_true, decide_eq_true_eq, host, ← isScheme]
  constructor
  · rintro ⟨http, loopback⟩
    refine ⟨?_, loopback⟩
    cases scheme : url.scheme with
    | http => rfl
    | https =>
      rw [scheme] at http
      cases http
  · rintro ⟨http, loopback⟩
    rw [http]
    exact ⟨rfl, loopback⟩

/-! ## Endpoints -/

/-- A host of the machine itself is an address to connect to. -/
theorem connects_loopback (normal : url.Normal) (loopback : url.isLiteralLoopback = true) :
    ∃ address, connectAddress url = some address ∧ address.isLoopback = true := by
  have host := normal.authority.host
  unfold Url.isLiteralLoopback Url.isLoopbackText at loopback
  unfold connectAddress
  rw [normal.validConnectHost, normal.validPathAndQuery, if_pos (by decide)]
  generalize url.host = host' at host loopback ⊢
  cases host with
  | v4 address =>
    rw [address.parse_toText, Ipv6Addr.parse_v4] at loopback
    exact ⟨.v4 address, IpAddr.parse_v4 address, show address.isLoopback = true by simpa using loopback⟩
  | v6 address =>
    rw [Ipv4Addr.parse_v6, address.parse_toText] at loopback
    exact ⟨.v6 address, IpAddr.parse_v6 address, show address.isLoopback = true by simpa using loopback⟩
  | name name =>
    have plain : ':' ∉ host' := by
      intro colon
      rcases name.chars ':' colon with char | dot
      · cases char
      · cases dot
    rw [name.not_v4, Ipv6Addr.parse_plain plain] at loopback
    cases loopback

theorem requestUrl_ok {caPem : Option (List UInt8)} (requested : requestUrl endpoint caPem = .ok url) : Url.parse endpoint.url = .ok url := by
  unfold requestUrl at requested
  split at requested
  · cases requested
  · next found parsed =>
    split at requested <;> cases requested
    exact parsed

/-- What the manifest accepts without TLS. -/
theorem checkEndpoint_plain (accepted : checkEndpoint endpoint = .ok checked) (plain : endpoint.tls = false) :
    isLiteralLoopback endpoint.url = true ∧ endpoint.tlsServerName = none ∧ endpoint.ca = none := by
  unfold checkEndpoint at accepted
  rw [plain] at accepted
  simp only [Bool.false_and, Bool.not_false, Bool.true_and, Bool.false_eq_true, if_false] at accepted
  split at accepted
  · cases accepted
  · next allowed =>
    simp only [or_eq_true, not_or, not_eq_true', Bool.not_eq_false, Option.isSome_iff_ne_none, not_not] at allowed
    exact ⟨allowed.1.1, allowed.1.2, allowed.2⟩

theorem plain_endpoint_loopback (accepted : checkEndpoint endpoint = .ok checked) (plain : endpoint.tls = false) :
    (∃ url, requestUrl endpoint none = .ok url) ∧
      ∀ caPem url, requestUrl endpoint caPem = .ok url →
        ∃ address, connectAddress url = some address ∧ address.isLoopback = true := by
  obtain ⟨loopback, noName, _⟩ := checkEndpoint_plain accepted plain
  obtain ⟨parsed, isParsed⟩ : ∃ parsed, parseHttpUrl endpoint.url = some parsed := by
    cases isParsed : parseHttpUrl endpoint.url with
    | some parsed => exact ⟨parsed, rfl⟩
    | none =>
      unfold isLiteralLoopback at loopback
      rw [isParsed] at loopback
      cases loopback
  obtain ⟨url, isUrl, isScheme, same⟩ := agreement isParsed
  have both := (isLiteralLoopback_iff isParsed isScheme same).mp loopback
  refine ⟨⟨url, ?_⟩, ?_⟩
  · unfold requestUrl
    rw [isUrl]
    have complete : completePolicy url endpoint none = true := by
      unfold completePolicy
      rw [both.1, plain, noName]
      exact both.2
    exact if_pos complete
  · intro caPem other requested
    have isOther : other = url := Except.ok.inj ((requestUrl_ok requested).symm.trans isUrl)
    rw [isOther]
    exact connects_loopback (Url.parse_normal isUrl) both.2

/-! ## The agreement -/

/-- A TLS endpoint of an address of the machine itself: the host is one, the check of the manifest says no. -/
theorem loopback_check_wants_http :
    ¬∀ (text : List Char) (parsed : ParsedHttpUrl), parseHttpUrl text = some parsed →
      ∃ url, Url.parse text = .ok url ∧ schemeText url.scheme = parsed.scheme ∧
        (url.isLiteralLoopback = true ↔ isLiteralLoopback text = true) := by
  intro claim
  have accepted : parseHttpUrl "https://127.0.0.1/".toList = some ⟨"https".toList, "127.0.0.1".toList⟩ := by decide +kernel
  obtain ⟨_, isUrl, _, agrees⟩ := claim _ _ accepted
  have parsed : Url.parse "https://127.0.0.1/".toList = .ok ⟨.https, "127.0.0.1".toList, 443, ['/']⟩ := by decide +kernel
  cases parsed.symm.trans isUrl
  have no : isLiteralLoopback "https://127.0.0.1/".toList = false := by decide +kernel
  have yes : (⟨.https, "127.0.0.1".toList, 443, ['/']⟩ : Url).isLiteralLoopback = true := by decide +kernel
  rw [agrees.mp yes] at no
  cases no

/-- What the manifest accepts, the request parses, with the same scheme and the same host, and the adapter
takes.  Without TLS it connects to the machine itself.  Every URL that is accepted is read back from its
text. -/
theorem endpoints_agree :
    (∀ (text : List Char) (parsed : ParsedHttpUrl), parseHttpUrl text = some parsed →
      ∃ url, Url.parse text = .ok url ∧ schemeText url.scheme = parsed.scheme ∧
        url.isLiteralLoopback = isLoopbackText parsed.host ∧
        (isLiteralLoopback text = true ↔ url.scheme = .http ∧ url.isLiteralLoopback = true) ∧
        validConnectHost url.host = true ∧ validPathAndQuery url.pathAndQuery = true) ∧
    (∀ endpoint checked : EndpointDeclaration, checkEndpoint endpoint = .ok checked → endpoint.tls = false →
      (∃ url, requestUrl endpoint none = .ok url) ∧
        ∀ caPem url, requestUrl endpoint caPem = .ok url →
          ∃ address, connectAddress url = some address ∧ address.isLoopback = true) ∧
    (∀ (text : List Char) (url : Url), Url.parse text = .ok url → Url.parse url.render = .ok url) := by
  refine ⟨?_, ?_, ?_⟩
  · intro text parsed accepted
    obtain ⟨url, isUrl, isScheme, same⟩ := agreement accepted
    have normal := Url.parse_normal isUrl
    exact ⟨url, isUrl, isScheme, same.loopback, isLiteralLoopback_iff accepted isScheme same, normal.validConnectHost,
      normal.validPathAndQuery⟩
  · intro endpoint checked accepted plain
    exact plain_endpoint_loopback accepted plain
  · intro text url parsed
    exact (Url.parse_normal parsed).parse_render

/-- An endpoint of the machine itself with an address that is written anew. -/
theorem endpoints_agree_loopback :
    (∃ url, requestUrl ⟨"local", "http://[0:0:0:0:0:0:0:1]:8080/a%2Fb?c".toList, false, none, none⟩ none = .ok url) ∧
      Url.parse "http://[::1]:8080/a%2Fb?c".toList = .ok ⟨.http, "::1".toList, 8080, "/a%2Fb?c".toList⟩ := by
  have accepted : checkEndpoint ⟨"local", "http://[0:0:0:0:0:0:0:1]:8080/a%2Fb?c".toList, false, none, none⟩ =
      .ok ⟨"local", "http://[0:0:0:0:0:0:0:1]:8080/a%2Fb?c".toList, false, none, none⟩ := by
    decide +kernel
  have parsed : Url.parse "http://[0:0:0:0:0:0:0:1]:8080/a%2fb?c".toList =
      .ok ⟨.http, "::1".toList, 8080, "/a%2Fb?c".toList⟩ := by
    decide +kernel
  have rendered : (⟨.http, "::1".toList, 8080, "/a%2Fb?c".toList⟩ : Url).render = "http://[::1]:8080/a%2Fb?c".toList := by
    decide +kernel
  have again := endpoints_agree.2.2 _ _ parsed
  exact ⟨(endpoints_agree.2.1 _ _ accepted rfl).1, again⟩

end Opaal.Project
