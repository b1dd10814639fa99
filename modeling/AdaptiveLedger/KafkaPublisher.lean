import Mathlib.Data.Rat.Floor
import AdaptiveLedger.Values.Literal

/-! The publisher of kafka/publisher.ts in the API. Its log lines are left out, and the fields
of its configuration and of the event that only they read. -/
namespace AdaptiveLedger

/-- The fields that publish reads; `none` is NaN. -/
structure KafkaConfig where
  maxAttempts : Option Int
  backoffBaseMs : Option Int
  backoffMaxMs : Option Int
  jitterRatio : Option ℚ

def variableOr (environment : String → Option String) (name dflt : String) : String :=
  match environment name with
  | some text => if text = "" then dflt else text
  | none => dflt

def KafkaConfig.ofEnvironment (parseFloat : String → Option ℚ)
    (environment : String → Option String) : KafkaConfig where
  maxAttempts := Literal.parseInt (variableOr environment "OUTBOX_MAX_ATTEMPTS" "5")
  backoffBaseMs := Literal.parseInt (variableOr environment "OUTBOX_BACKOFF_BASE_MS" "1000")
  backoffMaxMs := Literal.parseInt (variableOr environment "OUTBOX_BACKOFF_MAX_MS" "30000")
  jitterRatio := parseFloat (variableOr environment "OUTBOX_JITTER_RATIO" "0.2")

structure PublishResult where
  success : Bool
  offset : Option Int
  error : Option String
  deriving DecidableEq

/-- One call of publish: how often it has entered its `try` block, how long it has waited in
between, and what it has returned. -/
structure Publishing where
  tries : Nat
  delays : List (Option ℚ)
  result : PublishResult
  deriving DecidableEq

namespace KafkaPublisher

def delay (config : KafkaConfig) (attempt : Nat) (random : ℚ) : Option ℚ := do
  let base ← config.backoffBaseMs
  let most ← config.backoffMaxMs
  let ratio ← config.jitterRatio
  let backoff := min ((base : ℚ) * 2 ^ attempt) most
  let jitter := backoff * ratio * (random * 2 - 1)
  pure (backoff + jitter)

/-- The `while` loop, with what comes of the `try` block in each round. -/
def loop (config : KafkaConfig) (maxAttempts : Int) (send : Nat → Except String Int)
    (random : Nat → ℚ) (attempt : Nat) :
    Publishing :=
  if attempt < maxAttempts then
    match send attempt with
    | .ok offset => ⟨1,[],⟨true,some offset,none⟩⟩
    | .error error =>
      if maxAttempts ≤ (attempt + 1 : Nat) then ⟨1,[],⟨false,none,some error⟩⟩
      else
        let rest := loop config maxAttempts send random (attempt + 1)
        ⟨rest.tries + 1,delay config (attempt + 1) (random attempt) :: rest.delays,rest.result⟩
  else ⟨0,[],⟨false,none,some "max attempts reached"⟩⟩
termination_by (maxAttempts - attempt).toNat
decreasing_by omega

/-- No number is less than NaN. -/
def publish (config : KafkaConfig) (send : Nat → Except String Int) (random : Nat → ℚ) : Publishing :=
  match config.maxAttempts with
  | some maxAttempts => loop config maxAttempts send random 0
  | none => ⟨0,[],⟨false,none,some "max attempts reached"⟩⟩

variable {config : KafkaConfig} {maxAttempts : Nat} {random : Nat → ℚ}

/-- By induction on the attempts that are left. -/
theorem loop_fails (error : Nat → String) {left attempt : Nat}
    (rest : attempt + (left + 1) = maxAttempts) :
    let publishing := loop config maxAttempts (fun attempt => .error (error attempt)) random attempt
    publishing.tries = left + 1 ∧ publishing.delays.length = left ∧
      publishing.result = ⟨false,none,some (error (maxAttempts - 1))⟩ := by
  induction left generalizing attempt with
  | zero =>
    have last : maxAttempts - 1 = attempt := by omega
    rw [loop,if_pos (by omega)]
    dsimp only
    rw [if_pos (by omega),last]
    exact ⟨rfl,rfl,rfl⟩
  | succ left ih =>
    obtain ⟨tries,delays,result⟩ := @ih (attempt + 1) (by omega)
    rw [loop,if_pos (by omega)]
    dsimp only
    rw [if_neg (by omega)]
    exact ⟨congrArg (· + 1) tries,congrArg (· + 1) delays,result⟩

/-- Of an event that fails every time: publish gives up after maxAttempts tries. -/
theorem publish_fails (most : config.maxAttempts = some (maxAttempts : Int)) (positive : 1 ≤ maxAttempts)
    (error : Nat → String) :
    let publishing := publish config (fun attempt => .error (error attempt)) random
    publishing.tries = maxAttempts ∧ publishing.delays.length = maxAttempts - 1 ∧
      publishing.result = ⟨false,none,some (error (maxAttempts - 1))⟩ := by
  obtain ⟨left,rfl⟩ : ∃ left, maxAttempts = left + 1 := ⟨maxAttempts - 1,by omega⟩
  unfold publish
  rw [most]
  exact loop_fails error (by omega)

theorem ofEnvironment_maxAttempts {parseFloat : String → Option ℚ} {environment : String → Option String}
    (configured : environment "OUTBOX_MAX_ATTEMPTS" = some (Decimal.integer maxAttempts)) :
    (KafkaConfig.ofEnvironment parseFloat environment).maxAttempts = some (maxAttempts : Int) := by
  have nonempty : Decimal.integer maxAttempts ≠ "" := by
    intro empty
    have read := Literal.parseInt_integer maxAttempts
    rw [empty] at read
    contradiction
  simp [KafkaConfig.ofEnvironment,variableOr,configured,nonempty]

end KafkaPublisher

end AdaptiveLedger
