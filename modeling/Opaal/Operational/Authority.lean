import Opaal.Operational.Standard
import Opaal.Order.SortedLookup

/-!
# Authority

A context holds at most one rule for a request.  A request that no rule names is denied, one
that a rule grants is executed only as far as the platform enforces it.
-/

namespace Opaal.Authority

open Opaal.Operational
open Opaal.Order

def maxAuthorityRules : Nat := 256

/-! ## Requests -/

inductive AuthorityEffect where
  | filesystemRead
  | filesystemWrite
  | processRun
  | networkHttp
  | secretReveal
  | clockWall
  | clockMonotonic
  | entropySystem
  | stdinRead
  | stdoutWrite
  | stderrWrite
deriving DecidableEq

inductive PathComponent where
  | rootDir
  | curDir
  | parentDir
  | normal (name : List UInt8)
deriving DecidableEq

/-- Paths are the same when their components are. -/
inductive CapabilityScope where
  | projectPath (path : List PathComponent)
  | tool (name : String)
  | endpoint (name method : String)
  | secretSink (secret endpoint header : String)
  | evaluation
deriving DecidableEq

structure CapabilityRequest where
  effect : AuthorityEffect
  scope : CapabilityScope
deriving DecidableEq

/-! ## Their order -/

def PathComponent.key : PathComponent → List Nat
  | .rootDir => [0]
  | .curDir => [1]
  | .parentDir => [2]
  | .normal name => 3 :: name.map UInt8.toNat

/-- Strings are compared by their bytes. -/
def textKey (text : String) : List Nat := text.toByteArray.data.toList.map UInt8.toNat

/-- Scopes are compared by their variants, in the order in which these are declared, and then
by their fields. -/
def CapabilityScope.key : CapabilityScope → List (List Nat)
  | .projectPath path => [0] :: path.map PathComponent.key
  | .tool name => [[1], textKey name]
  | .endpoint name method => [[2], textKey name, textKey method]
  | .secretSink secret target header => [[3], textKey secret, textKey target, textKey header]
  | .evaluation => [[4]]

def CapabilityRequest.key (request : CapabilityRequest) : List (List Nat) := [request.effect.ctorIdx] :: request.scope.key

def CapabilityRequest.cmp (left right : CapabilityRequest) : Ordering := compareKeys left.key right.key

theorem toNats_injective : Function.Injective (List.map UInt8.toNat) :=
  List.map_injective_iff.mpr fun _ _ => UInt8.toNat_inj.mp

theorem PathComponent.key_injective : Function.Injective PathComponent.key := by
  intro left right same
  cases left <;> cases right <;> simp [PathComponent.key] at same ⊢
  exact toNats_injective same

theorem textKey_injective : Function.Injective textKey := by
  intro left right same
  have bytes : left.toByteArray = right.toByteArray := ByteArray.ext (Array.toList_inj.mp (toNats_injective same))
  exact String.toByteArray_inj.mp bytes

theorem CapabilityScope.key_injective : Function.Injective CapabilityScope.key := by
  intro left right same
  cases left <;> cases right <;> simp [CapabilityScope.key, textKey_injective.eq_iff] at same ⊢
  · exact List.map_injective_iff.mpr PathComponent.key_injective same
  all_goals exact same

/-- The order of requests agrees with their equality. -/
theorem CapabilityRequest.key_injective : Function.Injective CapabilityRequest.key := by
  rintro ⟨effect, scope⟩ ⟨effect', scope'⟩ same
  obtain ⟨effects, scopes⟩ := List.cons.inj same
  have sameScope := CapabilityScope.key_injective scopes
  have sameEffect : effect = effect' := by
    cases effect <;> cases effect' <;> first | rfl | cases effects
  exact congrArg₂ CapabilityRequest.mk sameEffect sameScope

/-! ## Contexts -/

inductive RequiredEnforcement where
  | enforced
  | acknowledgeUnenforced
deriving DecidableEq

/-- A grant with the enforcement it requires, or a denial. -/
structure AuthorityRule where
  request : CapabilityRequest
  required : Option RequiredEnforcement
deriving DecidableEq

/-- Only an opaque process may be acknowledged as unenforced. -/
def AuthorityRule.misplaced (rule : AuthorityRule) : Bool :=
  rule.required = some .acknowledgeUnenforced && rule.request.effect ≠ .processRun

inductive AuthorityContextError where
  | tooManyRules (count max : Nat)
  | duplicateRule (request : CapabilityRequest)
  | invalidUnenforcedAcknowledgement (request : CapabilityRequest)
deriving DecidableEq

structure EvaluationContextId where
  value : UInt64
  nonzero : value ≠ 0

def AuthorityRule.key (rule : AuthorityRule) : List (List Nat) := rule.request.key

/-- The rules stand in the order of their requests. -/
structure AuthorityContext where
  evaluation : EvaluationContextId
  rules : List AuthorityRule
  rising : rules.Pairwise fun first second => first.key < second.key

def AuthorityContext.new (evaluation : EvaluationContextId) (rules : List AuthorityRule) :
    Except AuthorityContextError AuthorityContext :=
  if maxAuthorityRules < rules.length then .error (.tooManyRules rules.length maxAuthorityRules)
  else
    match rules.find? AuthorityRule.misplaced with
    | some rule => .error (.invalidUnenforcedAcknowledgement rule.request)
    | none =>
      match single : firstRepeated AuthorityRule.key (sortByKey AuthorityRule.key rules) with
      | some rule => .error (.duplicateRule rule.request)
      | none => .ok ⟨evaluation, sortByKey AuthorityRule.key rules, (firstRepeated_none sortByKey_sorted).mp single⟩

/-! ## Verdicts -/

inductive AuthorityEnforcement where
  | enforced
  | unenforced
  | unsupported
  | unknown
deriving DecidableEq

/-- What a rule comes to when the platform enforces its request as it says. -/
def ruleVerdict : AuthorityEnforcement → Option RequiredEnforcement → AuthorityVerdict
  | _, none => .denied
  | .enforced, some _ => .grantedEnforced
  | .unenforced, some .acknowledgeUnenforced => .grantedUnenforced
  | .unenforced, some .enforced => .unsupported
  | .unsupported, some _ => .unsupported
  | .unknown, some _ => .unknown

variable (authorityEnforcement : CapabilityRequest → AuthorityEnforcement)

/-- The verdict on a request; no verdict would be an index out of bounds. -/
def AuthorityContext.verdict (self : AuthorityContext) (request : CapabilityRequest) : Option AuthorityVerdict :=
  match binarySearchBy (fun rule => rule.request.cmp request) self.rules with
  | none => some .denied
  | some index => self.rules[index]?.map fun rule => ruleVerdict (authorityEnforcement request) rule.required

/-- The verdict of the first rule for a request. -/
def linearVerdict (rules : List AuthorityRule) (request : CapabilityRequest) : AuthorityVerdict :=
  match rules.find? fun rule => rule.request = request with
  | none => .denied
  | some rule => ruleVerdict (authorityEnforcement request) rule.required

section Lookup

variable {evaluation : EvaluationContextId} {rules shuffled : List AuthorityRule} {context : AuthorityContext}
  {request : CapabilityRequest}

theorem AuthorityRule.named_iff (rule : AuthorityRule) : rule.key = request.key ↔ rule.request = request :=
  CapabilityRequest.key_injective.eq_iff

theorem distinct_iff : (rules.map AuthorityRule.key).Nodup ↔ (rules.map AuthorityRule.request).Nodup := by
  rw [show AuthorityRule.key = CapabilityRequest.key ∘ AuthorityRule.request from rfl, ← List.map_map]
  exact List.nodup_map_iff CapabilityRequest.key_injective

/-- When a list of rules is accepted. -/
structure Acceptable (rules : List AuthorityRule) : Prop where
  count : rules.length ≤ maxAuthorityRules
  distinct : (rules.map AuthorityRule.request).Nodup
  acknowledged : ∀ rule ∈ rules, rule.required = some .acknowledgeUnenforced → rule.request.effect = .processRun

theorem Acceptable.perm (acceptable : Acceptable rules) (perm : rules.Perm shuffled) : Acceptable shuffled where
  count := perm.length_eq ▸ acceptable.count
  distinct := (perm.map _).nodup_iff.mp acceptable.distinct
  acknowledged rule listed := acceptable.acknowledged rule (perm.mem_iff.mpr listed)

theorem misplaced_none : rules.find? AuthorityRule.misplaced = none ↔
    ∀ rule ∈ rules, rule.required = some .acknowledgeUnenforced → rule.request.effect = .processRun := by
  simp [AuthorityRule.misplaced]

theorem new_spec (evaluation : EvaluationContextId) (rules : List AuthorityRule) :
    (∃ context, AuthorityContext.new evaluation rules = .ok context ∧
    context.rules = sortByKey AuthorityRule.key rules ∧ Acceptable rules) ∨
      (∃ error, AuthorityContext.new evaluation rules = .error error) ∧ ¬ Acceptable rules := by
  unfold AuthorityContext.new
  split
  · next many => exact .inr ⟨⟨_, rfl⟩, fun acceptable => absurd acceptable.count (Nat.not_le.mpr many)⟩
  next few =>
  split
  · next found =>
    refine .inr ⟨⟨_, rfl⟩, fun acceptable => ?_⟩
    rw [misplaced_none.mpr acceptable.acknowledged] at found
    cases found
  next acknowledged =>
  split
  · next found =>
    refine .inr ⟨⟨_, rfl⟩, fun acceptable => ?_⟩
    rw [sortByKey_distinct.mpr (distinct_iff.mpr acceptable.distinct)] at found
    cases found
  · next single =>
    exact .inl ⟨_, rfl, rfl, Nat.not_lt.mp few, distinct_iff.mp (sortByKey_distinct.mp single),
      misplaced_none.mp acknowledged⟩

theorem cmp_eq_iff (rule : AuthorityRule) : rule.request.cmp request = .eq ↔ rule.request = request := by
  unfold CapabilityRequest.cmp compareKeys
  rw [compare_eq_iff_eq]
  exact rule.named_iff

/-- The verdict of a context is that of a search through the rules it was made of. -/
theorem verdict_linear (made : AuthorityContext.new evaluation rules = .ok context) (request : CapabilityRequest) :
    context.verdict authorityEnforcement request = some (linearVerdict authorityEnforcement rules request) := by
  rcases new_spec evaluation rules with ⟨other, accepted, sorted, acceptable⟩ | ⟨⟨_, refused⟩, _⟩
  · rw [made, Except.ok.injEq] at accepted
    rw [← accepted] at sorted
    have same : (context.rules.find? fun rule => rule.request.cmp request = .eq) =
        rules.find? fun rule => rule.request = request := by
      simp only [cmp_eq_iff, ← AuthorityRule.named_iff]
      have perm : context.rules.Perm rules := by
        rw [sorted]
        exact sortByKey_perm
      exact (find?_key_perm (distinct_iff.mpr acceptable.distinct) perm.symm _).symm
    unfold AuthorityContext.verdict linearVerdict
    rw [← same]
    rcases binarySearchBy_cases (ascends_of_keys context.rising request.key) with ⟨missed, absent⟩ | ⟨index, rule, hit, here, found⟩
    · change binarySearchBy (fun rule => rule.request.cmp request) context.rules = none at missed
      change (context.rules.find? fun rule => rule.request.cmp request = .eq) = none at absent
      rw [missed, absent]
    · change binarySearchBy (fun rule => rule.request.cmp request) context.rules = some index at hit
      change (context.rules.find? fun rule => rule.request.cmp request = .eq) = some rule at found
      rw [hit, found]
      simp [here]
  · rw [made] at refused
    cases refused

/-- The only rule for a request decides. -/
theorem linearVerdict_eq (acceptable : Acceptable rules) {rule : AuthorityRule} (listed : rule ∈ rules) :
    linearVerdict authorityEnforcement rules rule.request =
      ruleVerdict (authorityEnforcement rule.request) rule.required := by
  have found : (rules.find? fun other => other.request = rule.request) = some rule := by
    simp only [← AuthorityRule.named_iff]
    exact (find?_key_iff (distinct_iff.mpr acceptable.distinct)).mpr ⟨listed, rfl⟩
  unfold linearVerdict
  rw [found]

theorem linearVerdict_absent (absent : ∀ rule ∈ rules, rule.request ≠ request) :
    linearVerdict authorityEnforcement rules request = .denied := by
  have none : (rules.find? fun rule => rule.request = request) = none := by simpa using absent
  unfold linearVerdict
  rw [none]

end Lookup

/-- A list of rules makes a context exactly when there are not too many, no two name the same
request and only a process is acknowledged as unenforced.  The order of the rules matters
neither to that nor to the verdicts, which are those of a search from the front: a request is
granted only by a rule for it, a denial always denies it, and one that no rule names is
denied. -/
theorem authority_fail_closed (evaluation : EvaluationContextId) (rules : List AuthorityRule) :
    ((∃ context, AuthorityContext.new evaluation rules = .ok context) ↔
      rules.length ≤ maxAuthorityRules ∧ (rules.map AuthorityRule.request).Nodup ∧
        ∀ rule ∈ rules, rule.required = some .acknowledgeUnenforced → rule.request.effect = .processRun) ∧
    (∀ shuffled, rules.Perm shuffled →
      ((∃ context, AuthorityContext.new evaluation rules = .ok context) ↔
        ∃ context, AuthorityContext.new evaluation shuffled = .ok context) ∧
      ∀ context other, AuthorityContext.new evaluation rules = .ok context →
        AuthorityContext.new evaluation shuffled = .ok other →
          ∀ enforcement request, context.verdict enforcement request = other.verdict enforcement request) ∧
    ∀ context, AuthorityContext.new evaluation rules = .ok context → ∀ enforcement request,
      ∃ verdict, context.verdict enforcement request = some verdict ∧ verdict = linearVerdict enforcement rules request ∧
        (verdict.isExecutable = true → ∃ rule ∈ rules, rule.request = request ∧ rule.required ≠ none) ∧
        (∀ rule ∈ rules, rule.request = request → rule.required = none → verdict = .denied) ∧
        ((∀ rule ∈ rules, rule.request ≠ request) → verdict = .denied) := by
  have accepts : ∀ list, (∃ context, AuthorityContext.new evaluation list = .ok context) ↔ Acceptable list := by
    intro list
    rcases new_spec evaluation list with ⟨context, made, _, acceptable⟩ | ⟨⟨error, refused⟩, unfit⟩
    · exact ⟨fun _ => acceptable, fun _ => ⟨context, made⟩⟩
    · refine ⟨fun ⟨_, made⟩ => ?_, fun acceptable => absurd acceptable unfit⟩
      rw [made] at refused
      cases refused
  refine ⟨(accepts rules).trans ⟨fun fit => ⟨fit.count, fit.distinct, fit.acknowledged⟩, fun ⟨one, two, three⟩ => ⟨one, two, three⟩⟩,
    ?_, ?_⟩
  · intro shuffled perm
    refine ⟨(accepts rules).trans (.trans ⟨fun fit => fit.perm perm, fun fit => fit.perm perm.symm⟩ (accepts shuffled).symm), ?_⟩
    intro context other made made' enforcement request
    have acceptable := (accepts rules).mp ⟨context, made⟩
    rw [verdict_linear enforcement made, verdict_linear enforcement made']
    unfold linearVerdict
    simp only [← AuthorityRule.named_iff]
    rw [find?_key_perm (distinct_iff.mpr acceptable.distinct) perm]
  · intro context made enforcement request
    have acceptable := (accepts rules).mp ⟨context, made⟩
    refine ⟨_, verdict_linear enforcement made request, rfl, ?_, ?_, linearVerdict_absent enforcement⟩
    · intro executable
      by_contra ungranted
      by_cases absent : ∀ rule ∈ rules, rule.request ≠ request
      · rw [linearVerdict_absent enforcement absent] at executable
        cases executable
      · push Not at absent
        obtain ⟨rule, listed, rfl⟩ := absent
        have denied : rule.required = none := by
          by_contra grants
          exact ungranted ⟨rule, listed, rfl, grants⟩
        rw [linearVerdict_eq enforcement acceptable listed, denied] at executable
        cases executable
    · rintro rule listed rfl denies
      rw [linearVerdict_eq enforcement acceptable listed, denies]
      rfl

end Opaal.Authority
