import Opaal.Runtime.Security

/-!
# Redaction is complete and idempotent

The loop of the code is one marking pass, and its final test decides whether the result
is clean.  So either answer, the marked input or the marker alone, is clean, and a clean
text is a fixed point.  The needles of a store are exactly the representations of the
secrets that were ever accepted.
-/

namespace Opaal.Runtime.Security

open Opaal.Text List

/-! ## The marker -/

theorem redacted_length : (bytes redacted).length = 10 := by decide

theorem redacted_nonempty : bytes redacted ≠ [] := by decide

theorem redacted_unbordered : Unbordered (bytes redacted) := by
  intro cut positive short
  rw [redacted_length] at short
  interval_cases cut <;> decide

/-! ## The loop and the final test -/

section Replacement

variable {needles : List (List UInt8)}

/-- Each round makes one move of the marking pass, and the rest gets shorter. -/
theorem replaceLoop_eq (nonempty : ∀ needle ∈ needles, needle ≠ []) (bound : Nat) (rest output : List UInt8)
    (enough : rest.length < bound) :
    replaceLoop needles bound rest output = some (output ++ mark (bytes redacted) needles rest) := by
  induction bound generalizing rest output with
  | zero => omega
  | succ bound ih =>
    cases rest with
    | nil =>
      unfold replaceLoop
      simp [mark, markFrom]
    | cons byte rest =>
      rw [length_cons] at enough
      have shorter : ∀ size, 0 < size → ((byte :: rest).drop size).length < bound := by
        intro size positive
        rw [length_drop, length_cons]
        omega
      unfold replaceLoop
      simp only
      split
      · next copied =>
        rw [Bool.and_eq_true] at copied
        have starts := isPrefixOf_iff_prefix.mp copied.1
        have short : ∀ needle, nextNeedle needles (byte :: rest) = some needle →
            needle.length ≤ (bytes redacted).length := by
          intro needle found
          unfold nextNeedle at found
          rw [found] at copied
          simpa using copied.2
        rw [ih _ _ (shorter _ (by decide)), mark_marker redacted_nonempty starts short, append_assoc]
      · next uncopied =>
        split
        · next needle found =>
          have positive := length_pos_iff.mpr (nonempty needle (nextNeedle_some found).1)
          have replaced : ¬(bytes redacted <+: byte :: rest ∧ needle.length ≤ (bytes redacted).length) := by
            rintro ⟨starts, short⟩
            apply uncopied
            rw [found, Bool.and_eq_true]
            exact ⟨List.isPrefixOf_iff_prefix.mpr starts, by simpa using short⟩
          rw [ih _ _ (shorter _ positive), mark_needle (length_pos_iff.mp positive) found replaced,
            append_assoc]
        · next missing =>
          have unmarked : ¬bytes redacted <+: byte :: rest := by
            intro starts
            apply uncopied
            rw [missing, Bool.and_eq_true]
            exact ⟨List.isPrefixOf_iff_prefix.mpr starts, rfl⟩
          rw [ih rest _ (by omega), mark_plain missing unmarked, append_assoc]
          rfl

variable {input needle : List UInt8}

theorem containedInReplacement_iff {start size : Nat} (positive : 0 < size) :
    containedInReplacement input start (start + size) = true ↔ InMarker (bytes redacted) input start size := by
  unfold containedInReplacement InMarker OccursAt
  simp only [any_eq_true, mem_range, Bool.and_eq_true, decide_eq_true_eq, isPrefixOf_iff_prefix]
  constructor
  · rintro ⟨first, within, ⟨_, marked⟩, covers⟩
    exact ⟨first, by omega, marked, covers⟩
  · rintro ⟨first, before, marked, covers⟩
    have markerFits := OccursAt.fits redacted_nonempty marked
    exact ⟨first, by omega, ⟨by omega, marked⟩, covers⟩

/-- A window that equals the needle is an occurrence of it. -/
theorem mem_windows_iff {found : List (Nat × List UInt8)} (nonempty : needle ≠ [])
    (split : windows input needle.length = some found) {start : Nat} :
    (start, needle) ∈ found ↔ OccursAt needle input start := by
  have positive := length_pos_iff.mpr nonempty
  unfold windows at split
  rw [if_neg (by omega), Option.some.injEq] at split
  subst split
  simp only [mem_map, mem_range, Prod.mk.injEq]
  constructor
  · rintro ⟨_, _, rfl, taken⟩
    rw [← taken]
    exact take_prefix _ _
  · intro occurs
    have fits := occurs.fits nonempty
    exact ⟨start, by omega, rfl, (prefix_iff_eq_take.mp occurs).symm⟩

/-- One needle's turn in the final test. -/
theorem unredacted_needle (input : List UInt8) (nonempty : needle ≠ []) :
    ∃ found, windows input needle.length = some found ∧
      ((found.any fun (start, window) =>
          window == needle && !containedInReplacement input start (start + needle.length)) = false ↔
        ∀ start, OccursAt needle input start → InMarker (bytes redacted) input start needle.length) := by
  have positive := length_pos_iff.mpr nonempty
  obtain ⟨found, split⟩ : ∃ found, windows input needle.length = some found := by
    unfold windows
    rw [if_neg (by omega)]
    exact ⟨_, rfl⟩
  refine ⟨found, split, ?_⟩
  rw [any_eq_false]
  constructor
  · intro covered start occurs
    have member := (mem_windows_iff nonempty split).mpr occurs
    have inside := covered _ member
    rw [← containedInReplacement_iff positive]
    simpa using inside
  · rintro covered ⟨start, window⟩ member
    by_cases same : window = needle
    · subst same
      have occurs := (mem_windows_iff nonempty split).mp member
      have inside := (containedInReplacement_iff positive).mpr (covered start occurs)
      simp [inside]
    · simp [same]

/-- The final test decides whether its input is clean. -/
theorem containsUnredactedNeedle_spec (input : List UInt8) (nonempty : ∀ needle ∈ needles, needle ≠ []) :
    ∃ unredacted, containsUnredactedNeedle input needles = some unredacted ∧
      (unredacted = false ↔ Clean (bytes redacted) needles input) := by
  induction needles with
  | nil =>
    refine ⟨false, rfl, ?_⟩
    simp [Clean]
  | cons needle needles ih =>
    obtain ⟨found, split, covered⟩ := unredacted_needle input (nonempty needle mem_cons_self)
    obtain ⟨unredacted, known, clean⟩ := ih fun other member => nonempty other (mem_cons_of_mem _ member)
    unfold containsUnredactedNeedle at known ⊢
    simp only [List.anyM, split, Option.bind_eq_bind, Option.bind_some, Option.pure_def]
    have both : Clean (bytes redacted) (needle :: needles) input ↔
        (∀ start, OccursAt needle input start → InMarker (bytes redacted) input start needle.length) ∧
          Clean (bytes redacted) needles input := by
      exact forall_mem_cons
    rw [both, ← covered, ← clean]
    cases (found.any fun (start, window) =>
        window == needle && !containedInReplacement input start (start + needle.length)) with
    | true => exact ⟨true, rfl, by simp⟩
    | false => exact ⟨unredacted, known, by simp⟩

/-- What either answer of `replaceNeedles` is: clean, and the input where that has no needle. -/
theorem replaceNeedles_spec (nonempty : ∀ needle ∈ needles, needle ≠ []) (input : List UInt8) :
    ∃ output, replaceNeedles input needles = some output ∧ Clean (bytes redacted) needles output ∧
      (output = mark (bytes redacted) needles input ∨ output = bytes redacted) ∧
      (Clean (bytes redacted) needles (mark (bytes redacted) needles input) →
        output = mark (bytes redacted) needles input) := by
  obtain ⟨unredacted, known, clean⟩ :=
    containsUnredactedNeedle_spec (mark (bytes redacted) needles input) nonempty
  unfold replaceNeedles
  simp only [replaceLoop_eq nonempty _ input [] (Nat.lt_succ_self _), Option.bind_eq_bind, Option.bind_some,
    nil_append, known, Option.pure_def]
  cases unredacted with
  | true =>
    refine ⟨bytes redacted, rfl, clean_marker _ nonempty, .inr rfl, ?_⟩
    intro wasClean
    exact absurd (clean.mpr wasClean) (by decide)
  | false => exact ⟨_, rfl, clean.mp rfl, .inl rfl, fun _ => rfl⟩

/-- A clean text comes back as it is. -/
theorem replaceNeedles_clean (nonempty : ∀ needle ∈ needles, needle ≠ []) (clean : Clean (bytes redacted) needles input) : replaceNeedles input needles = some input := by
  have fixed := mark_clean redacted_unbordered redacted_nonempty nonempty clean
  obtain ⟨_, known, _, _, kept⟩ := replaceNeedles_spec nonempty input
  rw [fixed] at kept
  rw [known, kept clean]

end Replacement

/-! ## Representations -/

section Forms

variable (toJson : List Char → List UInt8)

/-- The byte that opens and closes a JSON string. -/
def quote : UInt8 := '"'.toUInt8

/-- The representations of a payload that are looked for. -/
inductive IsForm (payload : List UInt8) : List UInt8 → Prop where
  | raw : IsForm payload payload
  | hex : IsForm payload (encodeHex payload)
  | hexUppercase : IsForm payload ((encodeHex payload).map asciiUppercase)
  | base64 : IsForm payload (encodeBase64 false payload)
  | base64Unpadded : IsForm payload ((encodeBase64 false payload).rdropWhile isPadding)
  | urlBase64 : IsForm payload (encodeBase64 true payload)
  | urlBase64Padded : IsForm payload (encodeBase64 true payload ++
      List.replicate ((4 - (encodeBase64 true payload).length % 4) % 4) '='.toUInt8)
  | percent : IsForm payload (encodePercent payload)
  | percentLowercase : IsForm payload ((encodePercent payload).map asciiLowercase)
  | json (text : List Char) (body : List UInt8) (decoded : decode payload = some text)
    (quoted : toJson text = quote :: (body ++ [quote])) : IsForm payload body

/-- A string of the JSON library stands between quotes, and every character of it leaves a byte. -/
def Quotes : Prop := ∀ text, text ≠ [] → ∃ body, body ≠ [] ∧ toJson text = quote :: (body ++ [quote])

theorem letter_ne_padding (urlSafe : Bool) (place : UInt8) : letter (base64Alphabet urlSafe) place ≠ '='.toUInt8 := by
  have letters : ∀ b ∈ (base64Alphabet urlSafe).toList.map Char.toUInt8, b ≠ '='.toUInt8 := by
    have all : ((base64Alphabet urlSafe).toList.map Char.toUInt8).all (· != '='.toUInt8) = true := by
      cases urlSafe <;> decide
    exact fun b member => bne_iff_ne.mp (all_eq_true.mp all b member)
  unfold letter
  rw [getD_eq_getElem?_getD]
  cases found : ((base64Alphabet urlSafe).toList.map Char.toUInt8)[place.toNat]? with
  | none => decide
  | some b => exact letters b (mem_of_getElem? found)

variable {payload : List UInt8}

/-- Base64 of something starts with a letter. -/
theorem encodeBase64_starts (urlSafe : Bool) (nonempty : payload ≠ []) :
    ∃ place rest, encodeBase64 urlSafe payload = letter (base64Alphabet urlSafe) place :: rest := by
  match payload with
  | [] => exact absurd rfl nonempty
  | [_] => exact ⟨_, _, rfl⟩
  | [_, _] => exact ⟨_, _, rfl⟩
  | _ :: _ :: _ :: _ => exact ⟨_, _, rfl⟩

variable {toJson}

theorem decode_ne_nil {text : List Char} (nonempty : payload ≠ []) (decoded : decode payload = some text) : text ≠ [] := by
  intro empty
  subst empty
  exact nonempty (decode_eq_some decoded).symm

/-- No representation of a secret is empty. -/
theorem IsForm.ne_nil (quotes : Quotes toJson) {form : List UInt8} (nonempty : payload ≠ [])
    (isForm : IsForm toJson payload form) : form ≠ [] := by
  obtain ⟨_, _, rfl⟩ := exists_cons_of_ne_nil nonempty
  cases isForm with
  | raw => exact nonempty
  | hex | hexUppercase => simp [encodeHex]
  | base64 =>
    obtain ⟨place, tail, starts⟩ := encodeBase64_starts false nonempty
    simp [starts]
  | base64Unpadded =>
    obtain ⟨place, tail, starts⟩ := encodeBase64_starts false nonempty
    intro empty
    rw [rdropWhile_eq_nil_iff, starts] at empty
    have padded := empty _ mem_cons_self
    exact letter_ne_padding false place (beq_iff_eq.mp padded)
  | urlBase64 | urlBase64Padded =>
    obtain ⟨_, _, starts⟩ := encodeBase64_starts true nonempty
    simp [starts]
  | percent | percentLowercase => simp [encodePercent]
  | json text _ decoded quoted =>
    obtain ⟨_, unempty, same⟩ := quotes text (decode_ne_nil nonempty decoded)
    rw [quoted, List.cons.injEq] at same
    rw [append_cancel_right same.2]
    exact unempty

/-- The variants of a secret are its representations, and computing them does not panic. -/
theorem needleVariants_spec (quotes : Quotes toJson) (nonempty : payload ≠ []) :
    ∃ variants, needleVariants toJson payload = some variants ∧
      ∀ form, form ∈ variants ↔ IsForm toJson payload form := by
  unfold needleVariants
  cases decoded : decode payload with
  | none =>
    refine ⟨_, rfl, ?_⟩
    intro form
    constructor
    · intro member
      simp only [mem_cons, not_mem_nil, or_false] at member
      rcases member with rfl | rfl | rfl | rfl | rfl | rfl | rfl | rfl | rfl <;> constructor
    · intro isForm
      cases isForm with
      | json text body known quoted =>
        rw [decoded] at known
        contradiction
      | _ => simp
  | some text =>
    obtain ⟨body, _, quoted⟩ := quotes text (decode_ne_nil nonempty decoded)
    have escaped : jsonEscaped toJson text = some body := by
      unfold jsonEscaped
      rw [quoted]
      simp
    simp only [escaped, Option.bind_eq_bind, Option.bind_some, Option.pure_def]
    refine ⟨_, rfl, ?_⟩
    intro form
    constructor
    · intro member
      simp only [cons_append, nil_append, mem_cons, not_mem_nil, or_false] at member
      rcases member with rfl | rfl | rfl | rfl | rfl | rfl | rfl | rfl | rfl | rfl
      · exact .raw
      · exact .hex
      · exact .hexUppercase
      · exact .base64
      · exact .base64Unpadded
      · exact .urlBase64
      · exact .urlBase64Padded
      · exact .percent
      · exact .percentLowercase
      · exact .json text form decoded quoted
    · intro isForm
      cases isForm with
      | json _ _ known same =>
        rw [decoded] at known
        cases known
        rw [quoted, List.cons.injEq] at same
        simp [append_cancel_right same.2]
      | _ => simp

end Forms

/-! ## Runs of a store -/

section Runs

variable (toJson : List Char → List UInt8)

inductive StoreCall where
  | insert (secret : Secret)
  | consume (id : SecretId)

/-- A store together with the secrets it ever accepted, the consumed ones included. -/
structure History where
  store : SecretStore
  inserted : List Secret

/-- A rejected insertion leaves the store as it is; a panic ends the run. -/
def History.call (history : History) : StoreCall → Option History
  | .insert secret =>
    match history.store.insert toJson secret with
    | .ok store => some ⟨store, secret :: history.inserted⟩
    | .error (.rejected _) => some history
    | .error .panicked => none
  | .consume id => some { history with store := history.store.consume id }

def History.run (calls : List StoreCall) : Option History := calls.foldlM (History.call toJson) ⟨.new, []⟩

/-- A representation of a secret that was ever accepted. -/
def History.Registered (history : History) (form : List UInt8) : Prop :=
  ∃ secret ∈ history.inserted, IsForm toJson secret.payload form

/-- The needles are the registered representations. -/
def History.Tracked (history : History) : Prop :=
  ∀ form, form ∈ history.store.redactionNeedles ↔ history.Registered toJson form

variable {toJson}

theorem mem_sortLongestFirst {needle : List UInt8} {needles : List (List UInt8)} :
    needle ∈ sortLongestFirst needles ↔ needle ∈ needles := by
  exact mem_mergeSort

theorem History.Tracked.ne_nil {history : History} (tracked : history.Tracked toJson) (quotes : Quotes toJson) :
    ∀ needle ∈ history.store.redactionNeedles, needle ≠ [] := by
  intro needle member
  obtain ⟨secret, _, isForm⟩ := (tracked needle).mp member
  exact isForm.ne_nil quotes secret.nonempty

/-- One call: it does not panic and keeps the needles in step with the accepted secrets. -/
theorem call_tracked (quotes : Quotes toJson) {history : History} (tracked : history.Tracked toJson)
    (call : StoreCall) : ∃ next, history.call toJson call = some next ∧ next.Tracked toJson := by
  cases call with
  | consume => exact ⟨_, rfl, tracked⟩
  | insert secret =>
    obtain ⟨variants, known, forms⟩ := needleVariants_spec quotes secret.nonempty
    unfold History.call SecretStore.insert
    simp only [known]
    split
    · next next accepted =>
      refine ⟨_, rfl, ?_⟩
      split at accepted
      · contradiction
      split at accepted
      · contradiction
      · injection accepted with accepted
        subst accepted
        intro form
        rw [mem_sortLongestFirst, mem_append, tracked form, forms form]
        simp only [History.Registered, mem_cons, exists_eq_or_imp]
        exact or_comm
    · exact ⟨history, rfl, tracked⟩
    · next panicked =>
      split at panicked
      · injection panicked with panicked
        contradiction
      split at panicked
      · injection panicked with panicked
        contradiction
      · contradiction

theorem run_tracked (quotes : Quotes toJson) (calls : List StoreCall) :
    ∃ history, History.run toJson calls = some history ∧ history.Tracked toJson := by
  have onward : ∀ (history : History), history.Tracked toJson →
      ∃ last, calls.foldlM (History.call toJson) history = some last ∧ last.Tracked toJson := by
    induction calls with
    | nil =>
      intro history tracked
      exact ⟨history, rfl, tracked⟩
    | cons call _ ih =>
      intro history tracked
      obtain ⟨next, called, kept⟩ := call_tracked quotes tracked call
      rw [foldlM_cons, called]
      exact ih next kept
  apply onward
  intro form
  unfold History.Registered
  simp [SecretStore.new]

end Runs

/-! ## The answers -/

section Answers

variable {toJson : List Char → List UInt8}

/-- `output` is an answer for `input`: forms are only readable inside markers, and an input
without forms is kept. -/
structure Redacts (form : List UInt8 → Prop) (input output : List UInt8) : Prop where
  complete : ∀ needle, form needle → ∀ start, OccursAt needle output start →
    InMarker (bytes redacted) output start needle.length
  untouched : (∀ needle, form needle → ∀ start, ¬OccursAt needle input start) → output = input

variable {needles : List (List UInt8)}

/-- Replacement by a list of nonempty needles, whatever they are the representations of. -/
theorem replaceNeedles_redacts {form : List UInt8 → Prop} (forms : ∀ needle, needle ∈ needles ↔ form needle)
    (nonempty : ∀ needle ∈ needles, needle ≠ []) (input : List UInt8) :
    ∃ output, replaceNeedles input needles = some output ∧ Redacts form input output ∧
      replaceNeedles output needles = some output ∧
      (output = mark (bytes redacted) needles input ∨ output = bytes redacted) := by
  obtain ⟨output, known, clean, either, kept⟩ := replaceNeedles_spec nonempty input
  refine ⟨output, known, ⟨?_, ?_⟩, replaceNeedles_clean nonempty clean, either⟩
  · intro needle isForm
    exact clean needle ((forms needle).mpr isForm)
  · intro missing
    have absent : ∀ needle ∈ needles, ∀ start, ¬OccursAt needle input start := by
      intro needle member
      exact missing needle ((forms needle).mp member)
    have fixed := mark_absent redacted_nonempty absent
    rw [fixed] at kept
    apply kept
    intro needle member start occurs
    exact absurd occurs (absent needle member start)

theorem exists_texts (text : ∀ needle ∈ needles, (decode needle).isSome = true) :
    ∃ texts : List (List Char), needles = texts.map bytes := by
  induction needles with
  | nil => exact ⟨[], rfl⟩
  | cons needle _ ih =>
    obtain ⟨decoded, known⟩ := Option.isSome_iff_exists.mp (text needle mem_cons_self)
    obtain ⟨texts, same⟩ := ih fun other member => text other (mem_cons_of_mem _ member)
    exact ⟨decoded :: texts, by rw [map_cons, decode_eq_some known, same]⟩

theorem redactBytes_spec (quotes : Quotes toJson) {history : History} (tracked : history.Tracked toJson)
    (input : List UInt8) :
    ∃ output, history.store.redactBytes input = some output ∧
      Redacts (history.Registered toJson) input output ∧ history.store.redactBytes output = some output := by
  obtain ⟨output, known, redacts, again, _⟩ := replaceNeedles_redacts tracked (tracked.ne_nil quotes) input
  exact ⟨output, known, redacts, again⟩

/-- Text stays text: the needles that are text only occur at scalar boundaries. -/
theorem redactText_spec (quotes : Quotes toJson) {history : History} (tracked : history.Tracked toJson)
    (input : List Char) :
    ∃ output, history.store.redactText input = some output ∧
      Redacts (fun form => history.Registered toJson form ∧ (decode form).isSome) (bytes input) (bytes output) ∧
      history.store.redactText output = some output := by
  have forms : ∀ needle,
      needle ∈ sortLongestFirst (history.store.redactionNeedles.filter fun needle => (decode needle).isSome) ↔
        history.Registered toJson needle ∧ (decode needle).isSome = true := by
    intro needle
    rw [mem_sortLongestFirst, mem_filter, tracked needle]
  have nonempty : ∀ needle ∈
      sortLongestFirst (history.store.redactionNeedles.filter fun needle => (decode needle).isSome),
      needle ≠ [] := by
    intro needle member
    exact tracked.ne_nil quotes needle ((tracked needle).mpr ((forms needle).mp member).1)
  obtain ⟨texts, same⟩ := exists_texts fun needle member => ((forms needle).mp member).2
  obtain ⟨output, known, redacts, again, either⟩ := replaceNeedles_redacts forms nonempty (bytes input)
  have encoded : ∃ text, output = bytes text := by
    rcases either with marked | marker
    · have textsNonempty : ∀ text ∈ texts, text ≠ [] := by
        intro text member empty
        subst empty
        apply nonempty []
        · rw [same]
          exact mem_map.mpr ⟨[], member, rfl⟩
        · rfl
      rw [marked, same]
      exact mark_bytes (by decide) textsNonempty input
    · exact ⟨redacted, marker⟩
  obtain ⟨text, rfl⟩ := encoded
  refine ⟨text, ?_, redacts, ?_⟩
  · unfold SecretStore.redactText
    simp [known, decode_bytes]
  · unfold SecretStore.redactText
    simp [again, decode_bytes]

/-- After any insertions and consumptions, every answer of either redactor exists, shows no
representation of a secret ever accepted outside a marker, is kept by redacting it again,
and is the input when that shows none. -/
theorem redaction_complete (quotes : Quotes toJson) (calls : List StoreCall) :
    ∃ history, History.run toJson calls = some history ∧
      (∀ input, ∃ output, history.store.redactBytes input = some output ∧
        Redacts (history.Registered toJson) input output ∧ history.store.redactBytes output = some output) ∧
      (∀ input, ∃ output, history.store.redactText input = some output ∧
        Redacts (fun form => history.Registered toJson form ∧ (decode form).isSome) (bytes input) (bytes output) ∧
        history.store.redactText output = some output) := by
  obtain ⟨history, ran, tracked⟩ := run_tracked quotes calls
  exact ⟨history, ran, redactBytes_spec quotes tracked, redactText_spec quotes tracked⟩

/-- Text without characters to escape, between quotes. -/
def plainJson (text : List Char) : List UInt8 := quote :: (bytes text ++ [quote])

theorem plainJson_quotes : Quotes plainJson := by
  intro text nonempty
  exact ⟨bytes text, bytes_ne_nil nonempty, rfl⟩

/-- A token that is inserted and consumed, with a JSON printer that escapes nothing in it. -/
def tokenSecret : Secret := ⟨⟨"token", by decide⟩, bytes "hunter2".toList, by decide, by decide⟩

theorem redaction_complete_token : ∃ history, History.run plainJson [.insert tokenSecret, .consume tokenSecret.id] = some history ∧
      (∀ input, ∃ output, history.store.redactBytes input = some output ∧
        Redacts (history.Registered plainJson) input output ∧ history.store.redactBytes output = some output) ∧
      (∀ input, ∃ output, history.store.redactText input = some output ∧
        Redacts (fun form => history.Registered plainJson form ∧ (decode form).isSome) (bytes input) (bytes output) ∧
        history.store.redactText output = some output) :=
  redaction_complete plainJson_quotes [.insert tokenSecret, .consume tokenSecret.id]

end Answers

end Opaal.Runtime.Security
