import Mathlib.Data.List.Forall2
import Opaal.Json.Grammar
import Opaal.Json.Ordered
import Opaal.Text.Decode

/-!
# The canonical form of a document

No blanks, the members of an object in the order of the UTF-16 code units of their keys, and
of the numbers only the natural ones below `2 ^ 64`.  The canonical text of an ordered document
denotes it, so that a text is the canonical form of one document at most.
-/

namespace Opaal.Json

open List

open Opaal.Text (bytes)

/-! ## UTF-16 -/

def utf16Units (character : Char) : List Nat :=
  if character.toNat < 0x10000 then [character.toNat]
  else [0xd800 + (character.toNat - 0x10000) / 1024, 0xdc00 + (character.toNat - 0x10000) % 1024]

def utf16 (text : String) : List Nat := text.toList.flatMap utf16Units

/-- The order of two keys by their code units. -/
def Utf16Le {α : Type} (left right : String × α) : Prop := (compare (utf16 left.1) (utf16 right.1)).isLE = true

instance {α : Type} : DecidableRel (@Utf16Le α) := fun _ _ => inferInstanceAs (Decidable (_ = _))

instance {α : Type} : IsTrans (String × α) Utf16Le where
  trans _ _ _ one two := Std.TransCmp.isLE_trans one two

instance {α : Type} : Std.Total (@Utf16Le α) where
  total first second := by
    unfold Utf16Le
    rw [@Std.OrientedCmp.eq_swap _ compare _ (utf16 second.1) (utf16 first.1)]
    cases compare (utf16 first.1) (utf16 second.1) <;> simp

/-- Entries in the order of their keys; equal keys stay as they are. -/
def sortByUtf16 {α : Type} (entries : List (String × α)) : List (String × α) := entries.insertionSort Utf16Le

theorem sortByUtf16_perm {α : Type} (entries : List (String × α)) : (sortByUtf16 entries).Perm entries :=
  perm_insertionSort _ _

theorem sortByUtf16_pairwise {α : Type} (entries : List (String × α)) : (sortByUtf16 entries).Pairwise Utf16Le :=
  pairwise_insertionSort _ _

/-- Sorting by key commutes with a change of the values. -/
theorem sortByUtf16_map {α β : Type} (change : α → β) (entries : List (String × α)) :
    sortByUtf16 (entries.map fun entry => (entry.1, change entry.2)) =
      (sortByUtf16 entries).map fun entry => (entry.1, change entry.2) := by
  symm
  exact map_insertionSort _ _ _ _ fun _ _ _ _ => Iff.rfl

/-! ## The form -/

/-- Texts with commas between them. -/
def commas : List (List UInt8) → List UInt8
  | [] => []
  | [text] => text
  | text :: texts => text ++ bytes [','] ++ commas texts

/-- Something between two characters. -/
def between (first last : Char) (inner : List UInt8) : List UInt8 := bytes [first] ++ inner ++ bytes [last]

def memberText (quote : String → List UInt8) (key : String) (value : List UInt8) : List UInt8 :=
  quote key ++ bytes [':'] ++ value

/-- The canonical form of a value over those of the values it contains. -/
inductive CanonicalForm (quote : String → List UInt8) (inner : Tree → List UInt8 → Prop) : Tree → List UInt8 → Prop
  | null : CanonicalForm quote inner .null (bytes ['n', 'u', 'l', 'l'])
  | isTrue : CanonicalForm quote inner (.bool true) (bytes ['t', 'r', 'u', 'e'])
  | isFalse : CanonicalForm quote inner (.bool false) (bytes ['f', 'a', 'l', 's', 'e'])
  | number (value : Nat) (bound : value < 2 ^ 64) :
      CanonicalForm quote inner (.ofNat value bound) (bytes (Nat.toDigits 10 value))
  | string (value : String) : CanonicalForm quote inner (.string value) (quote value)
  | array {items : List Tree} {texts : List (List UInt8)} (each : List.Forall₂ inner items texts) :
      CanonicalForm quote inner (.array items) (between '[' ']' (commas texts))
  | object {members sorted : Members} {texts : List (List UInt8)} (permuted : sorted.Perm members)
      (inOrder : sorted.Pairwise Utf16Le)
      (each : List.Forall₂ (fun member text => inner member.2 text) sorted texts) :
      CanonicalForm quote inner (.object members)
        (between '\x7b' '\x7d' (commas (List.zipWith (fun member text => memberText quote member.1 text) sorted texts)))

/-- The canonical form of a value that nests at most so deep; what contains nothing nests zero deep. -/
def Canonical (quote : String → List UInt8) : Nat → Tree → List UInt8 → Prop
  | 0 => CanonicalForm quote fun _ _ => False
  | levels + 1 => CanonicalForm quote (Canonical quote levels)

/-! ## What a canonical text denotes -/

/-- Documents are built as they are read; of two members with one key the last is kept. -/
def treeBuilder (number : List Char → Option Tree) : Builder Tree where
  null := .null
  bool := .bool
  number := number
  string text := .string (String.ofList text)
  array := .array
  object entries := some (.object (Members.ofEntries (entries.map fun entry => (String.ofList entry.1, entry.2))))

/-- Strings are written as strings are spelled. -/
def Quotes (quote : String → List UInt8) : Prop := ∀ text : String, ∃ core, SpellsString text.toList core ∧ quote text = bytes core

theorem padded_alone {γ : Type} {spells : γ → List Char → Prop} {item : γ} {text : List Char} (inner : spells item text) :
    Padded spells item text := by
  have alone : Padded spells item ([] ++ text ++ []) := .intro (by simp [Blank]) inner (by simp [Blank])
  simpa using alone

section Denotes

variable {quote : String → List UInt8} {number : List Char → Option Tree}

theorem commas_cons (text next : List UInt8) (texts : List (List UInt8)) :
    commas (text :: next :: texts) = text ++ bytes [','] ++ commas (next :: texts) := rfl

/-- Texts with commas between them spell the items they spell one by one. -/
theorem commas_separated {γ : Type} {spells : γ → List Char → Prop} {items : List γ} {texts : List (List UInt8)}
    (nonempty : items ≠ [])
    (each : List.Forall₂ (fun item text => ∃ core, text = bytes core ∧ spells item core) items texts) :
    ∃ core, commas texts = bytes core ∧ Separated spells items core := by
  induction each with
  | nil => exact absurd rfl nonempty
  | @cons _ _ _ _ first rest ih =>
    obtain ⟨core, rfl, spelled⟩ := first
    cases rest with
    | nil => exact ⟨core, rfl, .last (padded_alone spelled)⟩
    | cons =>
      obtain ⟨back, joined, separated⟩ := ih (by simp)
      refine ⟨core ++ ',' :: back, ?_, .more (padded_alone spelled) separated⟩
      rw [commas_cons, joined, append_assoc, ← Text.bytes_append, ← Text.bytes_append]
      rfl

theorem commas_enclosed {γ : Type} {spells : γ → List Char → Prop} {items : List γ} {texts : List (List UInt8)}
    (each : List.Forall₂ (fun item text => ∃ core, text = bytes core ∧ spells item core) items texts) :
    ∃ core, commas texts = bytes core ∧ Enclosed spells items core := by
  cases items with
  | nil =>
    cases each
    exact ⟨[], rfl, .none (by simp [Blank])⟩
  | cons =>
    obtain ⟨core, joined, separated⟩ := commas_separated (by simp) each
    exact ⟨core, joined, .some separated⟩

theorem between_bytes (first last : Char) (core : List Char) :
    between first last (bytes core) = bytes (first :: (core ++ [last])) := by
  unfold between
  rw [← Text.bytes_append, ← Text.bytes_append]
  rfl

theorem memberText_member (quotes : Quotes quote) {denotes : Tree → List Char → Prop} {member : String × Tree}
    {core : List Char} (valued : denotes member.2 core) :
    ∃ text, memberText quote member.1 (bytes core) = bytes text ∧ Member denotes (member.1.toList, member.2) text := by
  obtain ⟨name, spelled, quoted⟩ := quotes member.1
  have entry : Member denotes (member.1.toList, member.2) (name ++ [] ++ ':' :: ([] ++ core)) :=
    .intro spelled (by simp [Blank]) (by simp [Blank]) valued
  refine ⟨_, ?_, entry⟩
  unfold memberText
  rw [quoted, ← Text.bytes_append, ← Text.bytes_append, append_nil, nil_append, append_assoc]
  rfl

theorem members_spelled (quotes : Quotes quote) {denotes : Tree → List Char → Prop} {members : Members}
    {texts : List (List UInt8)}
    (each : List.Forall₂ (fun member text => ∃ core, text = bytes core ∧ denotes member.2 core) members texts) :
    List.Forall₂ (fun entry text => ∃ core, text = bytes core ∧ Member denotes entry core)
      (members.map fun member => (member.1.toList, member.2))
      (List.zipWith (fun member text => memberText quote member.1 text) members texts) := by
  induction each with
  | nil => exact .nil
  | cons first _ ih =>
    obtain ⟨_, rfl, valued⟩ := first
    exact .cons (memberText_member quotes valued) ih

theorem digits_token (value : Nat) : NumberToken (Nat.toDigits 10 value) where
  starts := by
    cases digits : Nat.toDigits 10 value with
    | nil => exact absurd digits Nat.toDigits_ne_nil
    | cons c rest =>
      have isDigit : c.isDigit = true :=
        Nat.isDigit_of_mem_toDigits (by decide) (by decide) (digits ▸ mem_cons_self : c ∈ Nat.toDigits 10 value)
      exact ⟨c, rest, rfl, by rw [startsNumber, isDigit, Bool.or_true]⟩
  numerals c member := by
    have isDigit : c.isDigit = true := Nat.isDigit_of_mem_toDigits (by decide) (by decide) member
    simp [isNumeral, isDigit]

/-- The number a reader makes of the digits of a natural number below `2 ^ 64`. -/
def ReadsNaturals (number : List Char → Option Tree) : Prop :=
  ∀ (value : Nat) (bound : value < 2 ^ 64), number (Nat.toDigits 10 value) = some (.ofNat value bound)

section

variable (quotes : Quotes quote) (naturals : ReadsNaturals number)
include quotes naturals

theorem CanonicalForm.denotes {inner : Tree → List UInt8 → Prop} {denotes : Tree → List Char → Prop}
    (within : ∀ tree text, tree.Ordered → inner tree text → ∃ core, text = bytes core ∧ denotes tree core) {tree : Tree}
    {text : List UInt8} (ordered : tree.Ordered) (form : CanonicalForm quote inner tree text) :
    ∃ core, text = bytes core ∧ Form (treeBuilder number) denotes tree core := by
  cases form with
  | null => exact ⟨_, rfl, @Form.literalNull _ (treeBuilder number) denotes⟩
  | isTrue => exact ⟨_, rfl, @Form.literalTrue _ (treeBuilder number) denotes⟩
  | isFalse => exact ⟨_, rfl, @Form.literalFalse _ (treeBuilder number) denotes⟩
  | number value bound => exact ⟨_, rfl, .number (digits_token value) (naturals value bound)⟩
  | string value =>
    obtain ⟨core, spelled, quoted⟩ := quotes value
    have denoted := @Form.string _ (treeBuilder number) denotes _ _ spelled
    have same : (treeBuilder number).string value.toList = .string value := by
      show Tree.string (String.ofList value.toList) = _
      rw [String.ofList_toList]
    rw [same] at denoted
    exact ⟨core, quoted, denoted⟩
  | array each =>
    cases ordered with
    | array all =>
      have spelled := ((List.forall₂_and_left _ _).mpr ⟨all, each⟩).imp fun item text held => within item text held.1 held.2
      obtain ⟨core, joined, enclosed⟩ := commas_enclosed spelled
      refine ⟨_, ?_, @Form.array _ (treeBuilder number) denotes _ _ enclosed⟩
      rw [joined, between_bytes]
  | @object _ sorted _ permuted _ each =>
    cases ordered with
    | object inKeyOrder all =>
      have spelled := ((List.forall₂_and_left _ _).mpr ⟨fun member held => all member (permuted.subset held), each⟩).imp
        fun member text held => within member.2 text held.1 held.2
      obtain ⟨_, joined, enclosed⟩ := commas_enclosed (members_spelled quotes spelled)
      refine ⟨_, ?_, .object enclosed ?_⟩
      · rw [joined, between_bytes]
      · show some (Tree.object (Members.ofEntries _)) = _
        rw [map_map]
        have same : sorted.map ((fun entry => (String.ofList entry.1, entry.2)) ∘ fun member => (member.1.toList, member.2)) =
            sorted := by
          refine map_id'' (fun member => ?_) sorted
          show (String.ofList member.1.toList, member.2) = member
          rw [String.ofList_toList]
        rw [same, Members.ofEntries_eq inKeyOrder permuted]

/-- A canonical text denotes the document it is the form of. -/
theorem Canonical.denotes {levels : Nat} {tree : Tree} {text : List UInt8} (ordered : tree.Ordered)
    (canonical : Canonical quote levels tree text) :
    ∃ core, text = bytes core ∧ Denotes (treeBuilder number) (levels + 1) tree core := by
  induction levels generalizing tree text with
  | zero => exact CanonicalForm.denotes quotes naturals (fun _ _ _ impossible => impossible.elim) ordered canonical
  | succ _ ih => exact CanonicalForm.denotes quotes naturals (fun _ _ => ih) ordered canonical

theorem Canonical.document {levels : Nat} {tree : Tree} {text : List UInt8} (ordered : tree.Ordered)
    (canonical : Canonical quote levels tree text) :
    ∃ core, text = bytes core ∧ Document (treeBuilder number) (levels + 1) tree core := by
  obtain ⟨core, same, denotes⟩ := canonical.denotes quotes naturals ordered
  exact ⟨core, same, padded_alone denotes⟩

end

/-! ## What is read is ordered -/

theorem Enclosed.each {γ : Type} {spells : γ → List Char → Prop} {items : List γ} {text : List Char}
    (enclosed : Enclosed spells items text) : ∀ item ∈ items, ∃ core, spells item core := by
  have padded : ∀ {item text}, Padded spells item text → ∃ core, spells item core := by
    rintro item text ⟨_, inner, _⟩
    exact ⟨_, inner⟩
  cases enclosed with
  | none =>
    intro item member
    cases member
  | some separated =>
    induction separated with
    | last only =>
      intro item member
      rw [mem_singleton.mp member]
      exact padded only
    | more first _ ih =>
      intro item member
      rcases mem_cons.mp member with rfl | later
      · exact padded first
      · exact ih item later

theorem Form.ordered (numbers : ∀ token tree, number token = some tree → tree.Ordered)
    {denotes : Tree → List Char → Prop} (within : ∀ tree text, denotes tree text → tree.Ordered)
    {tree : Tree} {text : List Char} (form : Form (treeBuilder number) denotes tree text) : tree.Ordered := by
  cases form with
  | literalNull => exact .null
  | literalTrue => exact .bool true
  | literalFalse => exact .bool false
  | number _ built => exact numbers _ _ built
  | string => exact .string _
  | array enclosed =>
    refine .array fun item member => ?_
    obtain ⟨core, inner⟩ := enclosed.each item member
    exact within item core inner
  | object enclosed built =>
    cases built
    refine .object (Members.ofEntries_sorted _) fun member held => ?_
    obtain ⟨entry, isEntry, rfl⟩ := mem_map.mp (Members.mem_ofEntries held)
    obtain ⟨_, inner⟩ := enclosed.each entry isEntry
    cases inner with
    | intro _ _ _ valued => exact within _ _ valued

theorem Denotes.ordered (numbers : ∀ token tree, number token = some tree → tree.Ordered) {levels : Nat} {tree : Tree}
    {text : List Char} (denotes : Denotes (treeBuilder number) levels tree text) : tree.Ordered := by
  induction levels generalizing tree text with
  | zero => exact denotes.elim
  | succ _ ih => exact Form.ordered numbers (fun _ _ => ih) denotes

end Denotes

end Opaal.Json
