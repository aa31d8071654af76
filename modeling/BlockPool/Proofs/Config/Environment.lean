import BlockPool.Config.Pool
import BlockPool.Config.Recycling
import BlockPool.Proofs.Config.Setting

/-!
# BlockPool — configurations from an environment

A configuration is read one variable after the other. The first text that is none of its kind is the
error; if there is none, the configuration is what the variables say and the defaults where they say
nothing, and it is checked.

* `Tunable`, `Tunable.Describes` — a field of a configuration and the variable that it is read from.
* `FirstMalformed` — the first of several variables that is refused.
* `Outcome` — all that reading the variables in their order can come to.
* `Loads` — an environment is read exactly as its variables say.
* `ofEnvironment_exact` — both configurations are.
-/

namespace BlockPool

/-- A field of a configuration, and the variable that it is read from. -/
structure Tunable (κ : Type) where
  key : String
  kind : Setting.Kind
  field : κ → kind.Value

section

variable {κ : Type} {vars : List (Tunable κ)} {v : Tunable κ} {env : Environment} {default c : κ}
  {validate : κ → Except ConfigError Unit} {key raw : String}

namespace Tunable

/-- A number that is read from a variable. -/
def number (key : String) (field : κ → Nat) : Tunable κ := ⟨key, .number, field⟩

/-- A switch that is read from a variable. -/
def switch (key : String) (field : κ → Bool) : Tunable κ := ⟨key, .switch, field⟩

/-- The field is what the variable says, or that of the default where it is not set. -/
def Describes (v : Tunable κ) (env : Environment) (default c : κ) : Prop :=
  Setting.Says v.kind env v.key (v.field default) (v.field c)

/-- The variable is set to a text that says nothing. -/
def Malformed (v : Tunable κ) (env : Environment) (raw : String) : Prop :=
  Setting.Malformed v.kind env v.key raw

/-- Reads the variable, with the field of the default where it is not set. -/
def read (v : Tunable κ) (env : Environment) (default : κ) : Except ConfigError v.kind.Value := do
  return (← Setting.lookup v.kind.read? env v.key).getD (v.field default)

/-- The field can be written as a text of the variable. -/
def Fits (v : Tunable κ) (c : κ) : Prop := v.kind.Fits (v.field c)

end Tunable

/-- The first variable in the list that is set to a text that says nothing, and this text. -/
inductive FirstMalformed (env : Environment) : List (Tunable κ) → String → String → Prop where
  | here {v : Tunable κ} {vars raw} (hMalformed : v.Malformed env raw) :
    FirstMalformed env (v :: vars) v.key raw
  | later {v : Tunable κ} {vars key raw} (hSound : ∀ text, ¬ v.Malformed env text)
    (hLater : FirstMalformed env vars key raw) : FirstMalformed env (v :: vars) key raw

theorem FirstMalformed.unique {key' raw' : String} (h : FirstMalformed env vars key raw)
    (h' : FirstMalformed env vars key' raw') : key = key' ∧ raw = raw' := by
  induction h with
  | here hMalformed =>
    cases h' with
    | here hMalformed' => exact ⟨rfl, Option.some.inj (hMalformed.1.symm.trans hMalformed'.1)⟩
    | later hSound hLater => exact absurd hMalformed (hSound _)
  | later hSound hLater ih =>
    cases h' with
    | here hMalformed => exact absurd hMalformed (hSound _)
    | later hSound' hLater' => exact ih hLater'

theorem FirstMalformed.exists_mem (h : FirstMalformed env vars key raw) :
    ∃ v ∈ vars, v.Malformed env raw := by
  induction h with
  | here hMalformed => exact ⟨_, List.mem_cons_self, hMalformed⟩
  | later hSound hLater ih =>
    obtain ⟨v, hMem, hMalformed⟩ := ih
    exact ⟨v, List.mem_cons_of_mem _ hMem, hMalformed⟩

/-- Where the variables describe a configuration, none is malformed. -/
theorem not_firstMalformed (h : ∀ v ∈ vars, v.Describes env default c) :
    ¬ FirstMalformed env vars key raw := by
  intro hFirst
  obtain ⟨v, hMem, hMalformed⟩ := hFirst.exists_mem
  exact Setting.Says.not_malformed (h v hMem) hMalformed

-- ---------------------------------------------------------------------------
-- One variable after the other
-- ---------------------------------------------------------------------------

/-- All that reading the variables in their order can come to, where something is known of the
configuration already. -/
def Outcome (vars : List (Tunable κ)) (env : Environment) (default : κ)
    (validate : κ → Except ConfigError Unit) (Known : κ → Prop) (r : Except ConfigError κ) : Prop :=
  (∃ key raw, FirstMalformed env vars key raw ∧ r = .error (.parse key raw)) ∨
    ∃ c, Known c ∧ (∀ v ∈ vars, v.Describes env default c) ∧ r = (validate c).map fun _ => c

/-- After the last variable the configuration is checked. -/
theorem outcome_nil {Known : κ → Prop} (hKnown : Known c) :
    Outcome [] env default validate Known (do validate c; return c) := by
  refine .inr ⟨c, hKnown, fun v hMem => absurd hMem List.not_mem_nil, ?_⟩
  cases validate c <;> rfl

/-- A variable is read, and then the others, with its field known. -/
theorem outcome_cons {Known : κ → Prop} {next : v.kind.Value → Except ConfigError κ}
    (hNext : ∀ value,
      Outcome vars env default validate (fun c => Known c ∧ v.field c = value) (next value)) :
    Outcome (v :: vars) env default validate Known (v.read env default >>= next) := by
  rcases Setting.lookup_cases v.kind env v.key (v.field default) with
    ⟨raw, hMalformed, hLookup⟩ | ⟨found, hLookup, hSays⟩
  · refine .inl ⟨v.key, raw, .here hMalformed, ?_⟩
    rw [Tunable.read, hLookup]
    rfl
  · have hRead : v.read env default >>= next = next (found.getD (v.field default)) := by
      rw [Tunable.read, hLookup]
      rfl
    rw [hRead]
    rcases hNext (found.getD (v.field default)) with
      ⟨key, raw, hFirst, hError⟩ | ⟨c, ⟨hKnown, hField⟩, hOthers, hChecked⟩
    · exact .inl ⟨key, raw, .later (fun text => hSays.not_malformed) hFirst, hError⟩
    · have hThis : v.Describes env default c := by
        rw [Tunable.Describes, hField]
        exact hSays
      exact .inr ⟨c, hKnown, List.forall_mem_cons.mpr ⟨hThis, hOthers⟩, hChecked⟩

-- ---------------------------------------------------------------------------
-- The whole environment
-- ---------------------------------------------------------------------------

/-- A check that finds nothing but values outside their range. -/
def RangesOnly (checked : Except ConfigError Unit) : Prop :=
  ∀ e, checked = .error e → ∃ key value reason, e = .outOfRange key value reason

theorem rangesOnly_ok : RangesOnly (.ok ()) := nofun

theorem RangesOnly.check {rest : Except ConfigError Unit} (h : RangesOnly rest) {violated : Prop}
    [Decidable violated] {key : String} {value : Nat} {reason : String} :
    RangesOnly (if violated then .error (.outOfRange key value reason) else rest) := by
  intro e hError
  split at hError
  · exact ⟨key, value, reason, (Except.error.inj hError).symm⟩
  · exact h e hError

/-- An environment is read exactly as its variables say. -/
structure Loads (vars : List (Tunable κ)) (default : κ) (validate : κ → Except ConfigError Unit)
    (load : Environment → Except ConfigError κ) : Prop where
  /-- A configuration comes out if and only if the variables describe it and it passes the check. -/
  ok_iff : ∀ env c, load env = .ok c ↔
    (∀ v ∈ vars, v.Describes env default c) ∧ validate c = .ok ()
  /-- An error is the first malformed text, or else the one that the check finds. -/
  error_iff : ∀ env e, load env = .error e ↔
    (∃ key raw, FirstMalformed env vars key raw ∧ e = .parse key raw) ∨
      ∃ c, (∀ v ∈ vars, v.Describes env default c) ∧ validate c = .error e
  ranges : ∀ c, RangesOnly (validate c)
  /-- A configuration that passes the check is read back from any texts of its fields. -/
  load_write : ∀ c, (∀ v ∈ vars, v.Fits c) → validate c = .ok () → ∀ env,
    (∀ v ∈ vars, ∃ style : Setting.Style,
      env v.key = some (style.write v.kind (v.field c))) → load env = .ok c

theorem map_const_eq_ok_iff {checked : Except ConfigError Unit} {c' : κ} :
    (checked.map fun _ => c') = .ok c ↔ c' = c ∧ checked = .ok () := by
  cases checked <;> simp [Except.map]

theorem map_const_eq_error_iff {checked : Except ConfigError Unit} {e : ConfigError} :
    (checked.map fun _ => c) = .error e ↔ checked = .error e := by
  cases checked <;> simp [Except.map]

/-- What reading variables in their order can come to is settled by the environment, if a
configuration has no other fields. -/
theorem loads_of_outcome {load : Environment → Except ConfigError κ}
    (hFields : ∀ c c' : κ, (∀ v ∈ vars, v.field c = v.field c') → c = c')
    (hRanges : ∀ c, RangesOnly (validate c))
    (hOutcome : ∀ env, Outcome vars env default validate (fun _ => True) (load env)) :
    Loads vars default validate load := by
  -- where the variables describe a configuration, it is the one that is checked
  have hLoad : ∀ env c, (∀ v ∈ vars, v.Describes env default c) →
      load env = (validate c).map fun _ => c := by
    intro env c hDescribed
    rcases hOutcome env with ⟨key, raw, hFirst, -⟩ | ⟨c', -, hOther, hChecked⟩
    · exact absurd hFirst (not_firstMalformed hDescribed)
    · obtain rfl : c' = c :=
        hFields c' c fun v hMem => Setting.Says.unique (hOther v hMem) (hDescribed v hMem)
      exact hChecked
  have hOk : ∀ env c, load env = .ok c ↔
      (∀ v ∈ vars, v.Describes env default c) ∧ validate c = .ok () := by
    intro env c
    constructor
    · intro hLoaded
      rcases hOutcome env with ⟨key, raw, -, hError⟩ | ⟨c', -, hDescribed, hChecked⟩
      · exact absurd (hLoaded.symm.trans hError) nofun
      · obtain ⟨rfl, hPassed⟩ := map_const_eq_ok_iff.mp (hChecked.symm.trans hLoaded)
        exact ⟨hDescribed, hPassed⟩
    · rintro ⟨hDescribed, hPassed⟩
      exact (hLoad env c hDescribed).trans (map_const_eq_ok_iff.mpr ⟨rfl, hPassed⟩)
  refine ⟨hOk, fun env e => ⟨fun hLoaded => ?_, ?_⟩, hRanges,
    fun c hFits hPassed env hWritten => ?_⟩
  · rcases hOutcome env with ⟨key, raw, hFirst, hError⟩ | ⟨c, -, hDescribed, hChecked⟩
    · exact .inl ⟨key, raw, hFirst, Except.error.inj (hLoaded.symm.trans hError)⟩
    · exact .inr ⟨c, hDescribed, map_const_eq_error_iff.mp (hChecked.symm.trans hLoaded)⟩
  · rintro (⟨key, raw, hFirst, rfl⟩ | ⟨c, hDescribed, hError⟩)
    · rcases hOutcome env with ⟨key', raw', hFirst', hError⟩ | ⟨c, -, hDescribed, -⟩
      · obtain ⟨rfl, rfl⟩ := hFirst.unique hFirst'
        exact hError
      · exact absurd hFirst (not_firstMalformed hDescribed)
    · exact (hLoad env c hDescribed).trans (map_const_eq_error_iff.mpr hError)
  · refine (hOk env c).mpr ⟨fun v hMem => ?_, hPassed⟩
    obtain ⟨style, hText⟩ := hWritten v hMem
    rw [Tunable.Describes, Setting.Says, hText]
    exact Setting.written_write style (hFits v hMem)

end

-- ---------------------------------------------------------------------------
-- Pools and recyclers
-- ---------------------------------------------------------------------------

namespace PoolConfig

/-- The tunables of a pool, in the order in which they are read. -/
def tunables : List (Tunable PoolConfig) :=
  [.number "POOLBUF_PAGE_SIZE" pageSize, .number "POOLBUF_MAX_ORDER" maxOrder,
    .number "POOLBUF_NUM_ARENAS" numArenas, .number "POOLBUF_TINY_CACHE_SIZE" tinyCacheSize,
    .number "POOLBUF_SMALL_CACHE_SIZE" smallCacheSize,
    .number "POOLBUF_NORMAL_CACHE_SIZE" normalCacheSize,
    .number "POOLBUF_MAX_CACHED_BUFFER_CAPACITY" maxCachedCapacity,
    .number "POOLBUF_CACHE_TRIM_INTERVAL" cacheTrimInterval,
    .number "POOLBUF_ALIGNMENT" alignment, .switch "POOLBUF_USE_THREAD_CACHE" useThreadCache]

theorem outcome_ofEnvironment (cores : Nat) (env : Environment) :
    Outcome tunables env (defaults cores) validate (fun _ => True) (ofEnvironment cores env) := by
  unfold ofEnvironment tunables
  refine outcome_cons fun pageSize => outcome_cons fun maxOrder => outcome_cons fun numArenas =>
    outcome_cons fun tinyCacheSize => outcome_cons fun smallCacheSize =>
    outcome_cons fun normalCacheSize => outcome_cons fun maxCachedCapacity =>
    outcome_cons fun cacheTrimInterval => outcome_cons fun alignment =>
    outcome_cons fun useThreadCache => outcome_nil ?_
  and_intros <;> trivial

theorem loads_ofEnvironment (cores : Nat) :
    Loads tunables (defaults cores) validate (ofEnvironment cores) := by
  refine loads_of_outcome (fun c c' hSame => ?_) (fun c => ?_) (outcome_ofEnvironment cores)
  · simp only [tunables, Tunable.number, Tunable.switch, List.forall_mem_cons] at hSame
    cases c
    cases c'
    simp_all
  · exact rangesOnly_ok.check.check.check.check.check.check

end PoolConfig

namespace RecyclerConfig

/-- The tunables of a recycler, in the order in which they are read. -/
def tunables : List (Tunable RecyclerConfig) :=
  [.number "POOLBUF_RECYCLER_MAX_CAPACITY_PER_THREAD" maxCapacityPerThread,
    .number "POOLBUF_RECYCLER_MAX_SHARED_CAPACITY_FACTOR" maxSharedCapacityFactor,
    .number "POOLBUF_RECYCLER_RATIO" ratio,
    .number "POOLBUF_RECYCLER_MAX_DELAYED_QUEUES_PER_THREAD" maxDelayedQueuesPerThread,
    .number "POOLBUF_RECYCLER_LINK_CAPACITY" linkCapacity]

theorem outcome_ofEnvironment (cores : Nat) (env : Environment) :
    Outcome tunables env (defaults cores) validate (fun _ => True) (ofEnvironment cores env) := by
  unfold ofEnvironment tunables
  refine outcome_cons fun maxCapacityPerThread => outcome_cons fun maxSharedCapacityFactor =>
    outcome_cons fun ratio => outcome_cons fun maxDelayedQueuesPerThread =>
    outcome_cons fun linkCapacity => outcome_nil ?_
  and_intros <;> trivial

theorem loads_ofEnvironment (cores : Nat) :
    Loads tunables (defaults cores) validate (ofEnvironment cores) := by
  refine loads_of_outcome (fun c c' hSame => ?_) (fun c => ?_) (outcome_ofEnvironment cores)
  · simp only [tunables, Tunable.number, List.forall_mem_cons] at hSame
    cases c
    cases c'
    simp_all
  · exact rangesOnly_ok.check.check.check

end RecyclerConfig

/-- Whatever the environment, both configurations are what their variables say, in the grammar of
numbers and switches, over the defaults of the machine. -/
theorem ofEnvironment_exact (cores : Nat) :
    Loads PoolConfig.tunables (PoolConfig.defaults cores) PoolConfig.validate
        (PoolConfig.ofEnvironment cores) ∧
      Loads RecyclerConfig.tunables (RecyclerConfig.defaults cores) RecyclerConfig.validate
        (RecyclerConfig.ofEnvironment cores) :=
  ⟨PoolConfig.loads_ofEnvironment cores, RecyclerConfig.loads_ofEnvironment cores⟩

/-- A text that says nothing is the error even where an earlier number is out of its range. -/
example :
    let env : Environment := fun key =>
      if key = "POOLBUF_RECYCLER_RATIO" then some " \t+0016\n"
      else if key = "POOLBUF_RECYCLER_MAX_SHARED_CAPACITY_FACTOR" then some "0" else none
    RecyclerConfig.ofEnvironment 1 env =
        .error (.outOfRange "POOLBUF_RECYCLER_MAX_SHARED_CAPACITY_FACTOR" 0 "expected at least 1") ∧
      RecyclerConfig.ofEnvironment 1 (fun key =>
        if key = "POOLBUF_RECYCLER_LINK_CAPACITY" then some " 1 6" else env key) =
        .error (.parse "POOLBUF_RECYCLER_LINK_CAPACITY" " 1 6") := by
  decide +kernel

end BlockPool
