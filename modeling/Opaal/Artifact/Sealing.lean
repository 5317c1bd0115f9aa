import Opaal.Runtime.JsonEncoder
import Opaal.Artifact.Artifact

/-!
# Sealed artifacts are parsed back

The bytes of a sealed artifact are the canonical form of its value, and parsing accepts nothing
else: what the library reads back from them is the value itself.
-/

namespace Opaal.Workflow

open Opaal.Json List
open Opaal.Machine (bind_ok)
open Opaal.Text (bytes)

/-! ## What is written -/

section Writing

variable {toWriter : String → List UInt8}

variable {depth : Nat} {items : List Tree} {members : Members} {fields : List (String × List UInt8)}
  {inner : Tree → List UInt8 → Prop} {tree : Tree}

theorem validateItems_ok (passed : validateItems depth items = .ok ()) :
    ∀ item ∈ items, validateDepth depth item = .ok () := by
  induction items with
  | nil =>
    intro item member
    cases member
  | cons _ _ ih =>
    obtain ⟨_, head, rest⟩ := bind_ok passed
    intro item member
    rcases mem_cons.mp member with rfl | later
    · exact head
    · exact ih rest item later

theorem validateMembers_ok :
    validateMembers depth members = .ok () ↔ ∀ member ∈ members, validateDepth depth member.2 = .ok () := by
  induction members with
  | nil => simp [validateMembers]
  | cons _ _ ih =>
    rw [validateMembers, forall_mem_cons, ← ih]
    constructor
    · intro passed
      obtain ⟨_, head, rest⟩ := bind_ok passed
      exact ⟨head, rest⟩
    · rintro ⟨head, rest⟩
      rw [head]
      exact rest

theorem writeItems_ok {texts : List (List UInt8)} (written : writeItems toWriter items = .ok texts) :
    List.Forall₂ (fun item text => writeCanonicalJson toWriter item = .ok text) items texts := by
  induction items generalizing texts with
  | nil =>
    cases written
    exact .nil
  | cons _ _ ih =>
    obtain ⟨_, first, written⟩ := bind_ok written
    obtain ⟨_, rest, written⟩ := bind_ok written
    cases written
    exact .cons first (ih rest)

/-- The members with the texts of their values. -/
theorem writeMembers_ok (written : writeMembers toWriter members = .ok fields) :
    ∃ entries : List (String × Tree × List UInt8),
      members = entries.map (fun entry => (entry.1, entry.2.1)) ∧
      fields = entries.map (fun entry => (entry.1, entry.2.2)) ∧
      ∀ entry ∈ entries, writeCanonicalJson toWriter entry.2.1 = .ok entry.2.2 := by
  induction members generalizing fields with
  | nil =>
    cases written
    exact ⟨[], rfl, rfl, by simp⟩
  | cons member _ ih =>
    obtain ⟨name, value⟩ := member
    obtain ⟨text, first, written⟩ := bind_ok written
    obtain ⟨_, rest, written⟩ := bind_ok written
    cases written
    obtain ⟨entries, rfl, rfl, each⟩ := ih rest
    refine ⟨(name, value, text) :: entries, rfl, rfl, ?_⟩
    exact forall_mem_cons.mpr ⟨first, each⟩

theorem ofNat_of_asU64 {number : Number} {value : Nat} (read : (Tree.number number).asU64 = some value) :
    ∃ bound, Tree.number number = .ofNat value bound := by
  cases number with
  | float => cases read
  | integer held =>
    obtain ⟨integer, lower, upper⟩ := held
    simp only [Tree.asU64] at read
    split at read
    · next nonnegative =>
      cases read
      refine ⟨by omega, ?_⟩
      simp [Tree.ofNat, Int.toNat_of_nonneg nonnegative]
    · cases read

theorem validateDepth_array (passed : validateDepth depth (.array items) = .ok ()) :
    validateItems (depth + 1) items = .ok () := by
  rw [validateDepth] at passed
  split at passed
  · cases passed
  · exact passed

theorem validateDepth_object :
    validateDepth depth (.object members) = .ok () ↔
      depth ≤ maxArtifactDepth ∧ validateMembers (depth + 1) members = .ok () := by
  rw [validateDepth]
  split
  · next deep =>
    constructor
    · intro passed
      cases passed
    · rintro ⟨shallow, _⟩
      omega
  · next shallow =>
    exact ⟨fun passed => ⟨Nat.le_of_not_lt shallow, passed⟩, fun passed => passed.2⟩

/-- Fields are written in the canonical order. -/
theorem writeFields_canonical (written : writeMembers toWriter members = .ok fields)
    (within : ∀ member ∈ members, ∀ text, writeCanonicalJson toWriter member.2 = .ok text → inner member.2 text) :
    CanonicalForm toWriter inner (.object members) (writeFields toWriter fields) := by
  obtain ⟨entries, rfl, rfl, each⟩ := writeMembers_ok written
  have sortedMembers := sortByUtf16_map Prod.fst entries
  have sortedFields := sortByUtf16_map Prod.snd entries
  have form : CanonicalForm toWriter inner (.object (entries.map fun entry => (entry.1, entry.2.1)))
      (between '\x7b' '\x7d' (commas (List.zipWith (fun member text => memberText toWriter member.1 text)
        ((sortByUtf16 entries).map fun entry => (entry.1, entry.2.1))
        ((sortByUtf16 entries).map fun entry => entry.2.2)))) := by
    refine .object ?_ ?_ ?_
    · rw [← sortedMembers]
      exact sortByUtf16_perm _
    · rw [← sortedMembers]
      exact sortByUtf16_pairwise _
    · rw [List.forall₂_map_left_iff, List.forall₂_map_right_iff, List.forall₂_same]
      intro entry member
      have held := (sortByUtf16_perm entries).mem_iff.mp member
      exact within _ (mem_map_of_mem held) _ (each entry held)
  rw [zipWith_map, zipWith_self] at form
  unfold writeFields
  rw [sortedFields, map_map]
  exact form

/-- A document that nests no deeper than a limit is written in its canonical form. -/
theorem writeCanonicalJson_form {text : List UInt8}
    (within : ∀ child text, validateDepth (depth + 1) child = .ok () → writeCanonicalJson toWriter child = .ok text → inner child text)
    (shallow : validateDepth depth tree = .ok ()) (written : writeCanonicalJson toWriter tree = .ok text) :
    CanonicalForm toWriter inner tree text := by
  cases tree with
  | null =>
    cases written
    exact .null
  | bool value =>
    cases value <;> rw [writeCanonicalJson] at written <;> cases written
    · exact .isFalse
    · exact .isTrue
  | number number =>
    rw [writeCanonicalJson] at written
    split at written
    · next value read =>
      cases written
      obtain ⟨bound, same⟩ := ofNat_of_asU64 read
      rw [same]
      exact .number value bound
    · cases written
  | string value =>
    cases written
    exact .string value
  | array =>
    obtain ⟨_, each, written⟩ := bind_ok written
    cases written
    have valid := validateItems_ok (validateDepth_array shallow)
    refine .array (((List.forall₂_and_left _ _).mpr ⟨valid, writeItems_ok each⟩).imp ?_)
    exact fun item text held => within item text held.1 held.2
  | object =>
    obtain ⟨_, each, written⟩ := bind_ok written
    cases written
    have valid := validateMembers_ok.mp (validateDepth_object.mp shallow).2
    exact writeFields_canonical each fun member held text => within member.2 text (valid member held)

theorem not_validateDepth (deep : maxArtifactDepth < depth) : validateDepth depth tree ≠ .ok () := by
  unfold validateDepth
  rw [if_pos deep]
  intro passed
  cases passed

theorem writeCanonicalJson_canonical {levels : Nat} (split : depth + levels = maxArtifactDepth) {text : List UInt8}
    (shallow : validateDepth depth tree = .ok ()) (written : writeCanonicalJson toWriter tree = .ok text) :
    Canonical toWriter levels tree text := by
  induction levels generalizing depth tree text with
  | zero => exact writeCanonicalJson_form (fun child _ valid _ => not_validateDepth (by omega) valid) shallow written
  | succ levels ih =>
    exact writeCanonicalJson_form (fun child _ valid => ih (by omega) valid) shallow written

end Writing

/-! ## The library -/

/-- A number that is the whole text. -/
def readNumber (services : Services) (token : List Char) : Option Tree :=
  (services.fromSlice (bytes token)).toOption.map OrderedTree.tree

/-- What the JSON library documents: strings are written as they are read, integers of 64 bits are
kept as they are, and every document that nests less than 128 deep is read. -/
structure JsonDocumented (services : Services) : Prop where
  quotes : Quotes services.toWriter
  naturals : ReadsNaturals (readNumber services)
  complete : ∀ levels tree text, levels < 128 → Document (treeBuilder (readNumber services)) levels tree text →
    ∃ ordered, services.fromSlice (bytes text) = .ok ⟨tree, ordered⟩

variable {services : Services}

variable {tree : Tree} {object : Members}

theorem fromSlice_canonical (documented : JsonDocumented services) (ordered : tree.Ordered) {text : List UInt8}
    (canonical : Canonical services.toWriter maxArtifactDepth tree text) :
    services.fromSlice text = .ok ⟨tree, ordered⟩ := by
  obtain ⟨core, rfl, document⟩ := canonical.document documented.quotes documented.naturals ordered
  obtain ⟨_, read⟩ := documented.complete _ tree core (by decide) document
  exact read

/-! ## Objects without their digest -/

theorem withoutDigest_sorted (sorted : object.Sorted) : Members.Sorted (withoutDigest object) :=
  sorted.sublist filter_sublist

theorem withoutDigest_ordered (ordered : Tree.Ordered (.object object)) :
    Tree.Ordered (.object (withoutDigest object)) := by
  cases ordered with
  | object sorted all =>
    exact .object (withoutDigest_sorted sorted) fun member held => all member (mem_filter.mp held).1

/-- An object is its digest and the rest. -/
theorem digest_cons_perm {value : Tree} (sorted : object.Sorted) (found : object.get? "digest" = some value) : (("digest", value) :: withoutDigest object).Perm object := by
  induction object with
  | nil => cases found
  | cons member members ih =>
    obtain ⟨before, rest⟩ := pairwise_cons.mp sorted
    by_cases isDigest : member.1 = "digest"
    · have others : withoutDigest (member :: members) = members := by
        unfold withoutDigest
        rw [filter_cons_of_neg (by simpa using isDigest), filter_eq_self]
        intro other held
        have later := before other held
        rw [isDigest] at later
        simpa using ne_of_gt later
      have same : member = ("digest", value) := by
        unfold Members.get? at found
        rw [lookup_cons, isDigest] at found
        simp only [BEq.rfl, Option.some.injEq] at found
        rw [← isDigest, ← found]
      rw [others, same]
    · have kept : withoutDigest (member :: members) = member :: withoutDigest members := by
        unfold withoutDigest
        rw [filter_cons_of_pos (by simpa using isDigest)]
      have onward : Members.get? members "digest" = some value := by
        unfold Members.get? at found ⊢
        rwa [lookup_cons, beq_false_of_ne (Ne.symm isDigest)] at found
      rw [kept]
      exact (List.Perm.swap _ _ _).trans ((ih rest onward).cons _)

/-! ## Artifacts -/

namespace CanonicalArtifact

/-- The bytes a digest is taken of. -/
def IsBody (services : Services) (artifact : CanonicalArtifact) (body : List UInt8) : Prop :=
  ∃ object, artifact.value = .object object ∧ writeCanonicalObject services.toWriter object true = .ok body

/-- What the parts of an artifact were checked for. -/
structure Checks (services : Services) (kind : ArtifactKind) (artifact : CanonicalArtifact) : Prop where
  shallow : validateDepth 0 artifact.value = .ok ()
  digested : ∃ (object : Members) (body : List UInt8), artifact.value = .object object ∧
    object.get? "digest" = some (.string artifact.digest) ∧
    writeCanonicalObject services.toWriter object true = .ok body ∧
    artifact.digest = "sha256:" ++ services.sha256 body
  small : refuseLarge kind artifact.bytes = .ok ()

variable {kind : ArtifactKind} {value : Tree} {input : List UInt8} {artifact : CanonicalArtifact}

theorem fromParts_ok (passed : fromParts services kind value input = .ok artifact) :
    artifact.value = value ∧ artifact.bytes = input ∧ Checks services kind artifact := by
  obtain ⟨_, valid, passed⟩ := bind_ok passed
  obtain ⟨object, isObject, passed⟩ := bind_ok passed
  obtain ⟨_, isDigest, passed⟩ := bind_ok passed
  obtain ⟨_, computed, passed⟩ := bind_ok passed
  split at passed
  · cases passed
  · next agrees =>
    obtain ⟨_, small, passed⟩ := bind_ok passed
    cases passed
    obtain ⟨_, shallow, _⟩ := bind_ok valid
    obtain ⟨body, written, computed⟩ := bind_ok computed
    cases computed
    obtain ⟨_, isText, passed⟩ := bind_ok isDigest
    obtain ⟨_, _, passed⟩ := bind_ok passed
    cases passed
    have held := Tree.eq_object (expect_ok isObject)
    obtain ⟨_, found, isString⟩ := requiredAs_ok isText
    rw [Tree.eq_string isString] at found
    exact ⟨rfl, rfl, shallow, ⟨object, body, held, found, written, (not_not.mp agrees).symm⟩, small⟩

theorem parse_ok (passed : parse services kind input = .ok artifact) :
    ∃ ordered, services.fromSlice input = .ok ⟨artifact.value, ordered⟩ ∧ artifact.bytes = input ∧
      writeCanonicalJson services.toWriter artifact.value = .ok input ∧ Checks services kind artifact := by
  obtain ⟨_, _, passed⟩ := bind_ok passed
  split at passed
  · cases passed
  · next value read =>
    obtain ⟨_, _, passed⟩ := bind_ok passed
    obtain ⟨_, written, passed⟩ := bind_ok passed
    split at passed
    · cases passed
    · next same =>
      rw [not_not.mp same] at passed written
      obtain ⟨isValue, isInput, checks⟩ := fromParts_ok passed
      rw [isValue]
      exact ⟨value.ordered, read, isInput, written, checks⟩

/-- What was written and checked is accepted. -/
theorem parse_of_fromParts (documented : JsonDocumented services) (ordered : value.Ordered)
    (written : writeCanonicalJson services.toWriter value = .ok input)
    (passed : fromParts services kind value input = .ok artifact) : parse services kind artifact.bytes = .ok artifact := by
  obtain ⟨isValue, isInput, checks⟩ := fromParts_ok passed
  have shallow := checks.shallow
  rw [isValue] at shallow
  have canonical : Canonical services.toWriter maxArtifactDepth value input :=
    writeCanonicalJson_canonical (Nat.zero_add _) shallow written
  have small := checks.small
  rw [isInput] at small ⊢
  unfold parse
  rw [small, fromSlice_canonical documented ordered canonical]
  show (validateDepth 0 value >>= fun _ => writeCanonicalJson services.toWriter value >>= fun canonical =>
    if canonical ≠ input then _ else fromParts services kind value canonical) = _
  rw [shallow, written]
  show (if input ≠ input then _ else fromParts services kind value input) = _
  rw [if_neg (not_not.mpr rfl), passed]

theorem parse_sealed (documented : JsonDocumented services) {document : Tree} (ordered : document.Ordered)
    (isSealed : sealArtifact services kind document = .ok artifact) : parse services kind artifact.bytes = .ok artifact := by
  unfold sealArtifact at isSealed
  split at isSealed
  · cases isSealed
  · next object isObject =>
    split at isSealed
    · cases isSealed
    · obtain ⟨_, _, isSealed⟩ := bind_ok isSealed
      obtain ⟨_, _, isSealed⟩ := bind_ok isSealed
      obtain ⟨_, isWritten, isSealed⟩ := bind_ok isSealed
      have held := Tree.eq_object isObject
      subst held
      refine parse_of_fromParts documented ?_ isWritten isSealed
      cases ordered with
      | object sorted all =>
        refine .object ((sorted.insert _ _).insert _ _) ?_
        intro member held
        rcases Members.mem_insert held with rfl | held
        · exact .string _
        · rcases Members.mem_insert held with rfl | held
          · exact .string _
          · exact all member held

theorem canonical_body {object : Members} {body : List UInt8} (shallow : validateDepth 0 (.object object) = .ok ())
    (written : writeCanonicalObject services.toWriter object true = .ok body) :
    Canonical services.toWriter maxArtifactDepth (.object (withoutDigest object)) body := by
  obtain ⟨_, each, written⟩ := bind_ok written
  cases written
  have valid := validateMembers_ok.mp (validateDepth_object.mp shallow).2
  refine writeFields_canonical each ?_
  intro member held text isText
  exact writeCanonicalJson_canonical (by rfl) (valid member (mem_filter.mp held).1) isText

/-- Two objects with one digest and one body are one object. -/
theorem object_of_body (documented : JsonDocumented services) {first second : Members} {digest : Tree} {body : List UInt8}
    (left : Tree.Ordered (.object first)) (right : Tree.Ordered (.object second))
    (isLeft : Canonical services.toWriter maxArtifactDepth (.object (withoutDigest first)) body)
    (isRight : Canonical services.toWriter maxArtifactDepth (.object (withoutDigest second)) body)
    (leftDigest : first.get? "digest" = some digest) (rightDigest : second.get? "digest" = some digest) :
    first = second := by
  have one := fromSlice_canonical documented (withoutDigest_ordered left) isLeft
  have other := fromSlice_canonical documented (withoutDigest_ordered right) isRight
  have rest : withoutDigest first = withoutDigest second := by
    have equal := one.symm.trans other
    simpa using equal
  cases left with
  | object leftSorted =>
    cases right with
    | object rightSorted =>
      have fromLeft := digest_cons_perm leftSorted leftDigest
      have fromRight := digest_cons_perm rightSorted rightDigest
      rw [rest] at fromLeft
      exact leftSorted.eq_of_perm rightSorted (fromLeft.symm.trans fromRight)

/-- Sealing and parsing agree on one form. -/
structure OneForm (services : Services) (kind : ArtifactKind) : Prop where
  parsesSealed : ∀ (document : OrderedTree) (artifact : CanonicalArtifact),
    sealArtifact services kind document.tree = .ok artifact → parse services kind artifact.bytes = .ok artifact
  acceptsCanonical : ∀ (input : List UInt8) (artifact : CanonicalArtifact), parse services kind input = .ok artifact →
    artifact.bytes = input ∧ (∃ ordered, services.fromSlice input = .ok ⟨artifact.value, ordered⟩) ∧
      Canonical services.toWriter maxArtifactDepth artifact.value input
  acceptsDigested : ∀ (input : List UInt8) (artifact : CanonicalArtifact), parse services kind input = .ok artifact →
    ∃ (object : Members) (body : List UInt8), artifact.value = .object object ∧
      object.get? "digest" = some (.string artifact.digest) ∧
      Canonical services.toWriter maxArtifactDepth (.object (withoutDigest object)) body ∧
      artifact.digest = "sha256:" ++ services.sha256 body
  valueDetermines : ∀ (first second : List UInt8) (one other : CanonicalArtifact),
    parse services kind first = .ok one → parse services kind second = .ok other → one.value = other.value →
    first = second
  digestDetermines : ∀ (first second : List UInt8) (one other : CanonicalArtifact),
    parse services kind first = .ok one → parse services kind second = .ok other → one.digest = other.digest →
    (∀ oneBody otherBody, IsBody services one oneBody → IsBody services other otherBody →
      services.sha256 oneBody = services.sha256 otherBody → oneBody = otherBody) →
    first = second

theorem sha256_of_digest {first second : String} (same : "sha256:" ++ first = "sha256:" ++ second) : first = second := by
  apply String.toList_inj.mp
  have lists := congrArg String.toList same
  rw [String.toList_append, String.toList_append] at lists
  exact append_cancel_left lists

theorem bytes_of_value (one other : CanonicalArtifact) {first second : List UInt8}
    (left : parse services kind first = .ok one) (right : parse services kind second = .ok other)
    (same : one.value = other.value) : first = second := by
  obtain ⟨_, _, _, written, _⟩ := parse_ok left
  obtain ⟨_, _, _, writtenToo, _⟩ := parse_ok right
  rw [same, writtenToo] at written
  exact (Except.ok.inj written).symm

/-- What is sealed is parsed back, and an accepted text is the one canonical text of its value and of
its digest. -/
theorem sealed_artifacts_canonical (services : Services) (documented : JsonDocumented services) (kind : ArtifactKind) :
    OneForm services kind where
  parsesSealed document artifact isSealed := parse_sealed documented document.ordered isSealed
  acceptsCanonical input artifact accepted := by
    obtain ⟨ordered, read, isInput, written, checks⟩ := parse_ok accepted
    exact ⟨isInput, ⟨ordered, read⟩, writeCanonicalJson_canonical (Nat.zero_add _) checks.shallow written⟩
  acceptsDigested input artifact accepted := by
    obtain ⟨_, _, _, _, checks⟩ := parse_ok accepted
    obtain ⟨object, body, isObject, isDigest, written, digested⟩ := checks.digested
    have shallow := checks.shallow
    rw [isObject] at shallow
    exact ⟨object, body, isObject, isDigest, canonical_body shallow written, digested⟩
  valueDetermines first second one other left right same := bytes_of_value one other left right same
  digestDetermines first second one other left right sameDigest collisionFree := by
    obtain ⟨leftOrdered, _, _, _, leftChecks⟩ := parse_ok left
    obtain ⟨rightOrdered, _, _, _, rightChecks⟩ := parse_ok right
    obtain ⟨object, body, isObject, isDigest, written, digested⟩ := leftChecks.digested
    obtain ⟨object', body', isObject', isDigest', written', digested'⟩ := rightChecks.digested
    have hashes : services.sha256 body = services.sha256 body' := by
      apply sha256_of_digest
      rw [← digested, ← digested', sameDigest]
    have sameBody := collisionFree body body' ⟨object, isObject, written⟩ ⟨object', isObject', written'⟩ hashes
    subst sameBody
    have shallow := leftChecks.shallow
    have shallow' := rightChecks.shallow
    rw [isObject] at leftOrdered shallow
    rw [isObject'] at rightOrdered shallow'
    rw [sameDigest] at isDigest
    have sameObject := object_of_body documented leftOrdered rightOrdered (canonical_body shallow written)
      (canonical_body shallow' written') isDigest isDigest'
    exact bytes_of_value one other left right (by rw [isObject, isObject', sameObject])

end CanonicalArtifact

/-! ## A small library

It reads the grammar directly and knows the natural numbers only. -/

def plainNatural (token : List Char) : Option Tree :=
  if token.all Char.isDigit then
    if bound : Nat.ofDigitChars 10 token 0 < 2 ^ 64 then some (.ofNat _ bound) else none
  else none

theorem plainNatural_ordered (token : List Char) (tree : Tree) (read : plainNatural token = some tree) : tree.Ordered := by
  unfold plainNatural at read
  split at read
  · split at read
    · cases read
      exact .number _
    · cases read
  · cases read

theorem plainRead_ordered {text : List Char} (read : readDocument (treeBuilder plainNatural) 127 text = some tree) : tree.Ordered := by
  have document := (readDocument_eq_some _ _ _ _).mp read
  obtain ⟨_, inner, _⟩ := document
  exact inner.ordered plainNatural_ordered

def plainFromSlice (input : List UInt8) : Except String OrderedTree :=
  match Text.decode input with
  | none => .error "invalid UTF-8"
  | some text =>
    match read : readDocument (treeBuilder plainNatural) 127 text with
    | some tree => .ok ⟨tree, plainRead_ordered read⟩
    | none => .error "expected value"

/-- The digest is the one of the only body it is asked for below. -/
def plainServices : Services where
  fromSlice := plainFromSlice
  toWriter text := bytes ('"' :: (text.toList.flatMap Runtime.plainEscape ++ ['"']))
  sha256 _ := "3b4d058e4b3e4bfa743fabff1be535d690a263b8e994208d34a05566a064fb9e"
  validate _ _ _ := .ok ()

theorem plainFromSlice_ok {text : List Char} (read : readDocument (treeBuilder plainNatural) 127 text = some tree) :
    ∃ ordered, plainFromSlice (bytes text) = .ok ⟨tree, ordered⟩ := by
  refine ⟨plainRead_ordered read, ?_⟩
  unfold plainFromSlice
  rw [Text.decode_bytes]
  dsimp only
  split
  · next held isHeld =>
    cases read.symm.trans isHeld
    rfl
  · next missing =>
    cases read.symm.trans missing

theorem readNumber_plain {token : List Char} (isToken : NumberToken token) :
    readNumber plainServices token = plainNatural token := by
  have number : readDocument (treeBuilder plainNatural) 127 token = plainNatural token := readDocument_number _ _ isToken
  show (plainFromSlice (bytes token)).toOption.map OrderedTree.tree = _
  unfold plainFromSlice
  rw [Text.decode_bytes]
  dsimp only
  split
  · next tree read =>
    have same : some tree = plainNatural token := read.symm.trans number
    exact same
  · next missing =>
    rw [← number, missing]
    rfl

theorem plainServices_documented : JsonDocumented plainServices where
  quotes text := ⟨_, .quoted (Runtime.plainText_spells text.toList), rfl⟩
  naturals value bound := by
    rw [readNumber_plain (digits_token value)]
    have digits : (Nat.toDigits 10 value).all Char.isDigit = true := by
      rw [all_eq_true]
      exact fun c member => Nat.isDigit_of_mem_toDigits (by decide) (by decide) member
    have back : Nat.ofDigitChars 10 (Nat.toDigits 10 value) 0 = value := Nat.ofDigitChars_ten_toDigits
    unfold plainNatural
    rw [if_pos digits, dif_pos (back.symm ▸ bound)]
    simp [back]
  complete levels tree text shallow document := by
    apply plainFromSlice_ok
    rw [readDocument_eq_some]
    exact Document.imp (fun token => readNumber_plain) (by omega) document

open CanonicalArtifact in
theorem sealed_artifacts_canonical_check :
    let document : Tree := .object [("schema", .string "opaal.check.v2"), ("schema_version", .ofNat 2 (by decide))]
    ∃ artifact, sealArtifact plainServices .check document = .ok artifact ∧
      artifact.digest = "sha256:3b4d058e4b3e4bfa743fabff1be535d690a263b8e994208d34a05566a064fb9e" ∧
      parse plainServices .check artifact.bytes = .ok artifact := by
  intro document
  have accepted : (sealArtifact plainServices .check document).toOption.map CanonicalArtifact.digest =
      some "sha256:3b4d058e4b3e4bfa743fabff1be535d690a263b8e994208d34a05566a064fb9e" := by decide +kernel
  have ordered : document.Ordered := by
    refine .object (pairwise_pair.mpr (by decide)) ?_
    simp only [mem_cons, not_mem_nil, or_false, forall_eq_or_imp, forall_eq]
    exact ⟨.string _, .number _⟩
  cases isSealed : sealArtifact plainServices .check document with
  | error =>
    rw [isSealed] at accepted
    cases accepted
  | ok artifact =>
    rw [isSealed] at accepted
    have one := sealed_artifacts_canonical plainServices plainServices_documented .check
    exact ⟨artifact, rfl, Option.some.inj accepted, one.parsesSealed ⟨document, ordered⟩ artifact isSealed⟩

end Opaal.Workflow
