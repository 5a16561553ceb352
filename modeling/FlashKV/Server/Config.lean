import FlashKV.Command.Processor
import FlashKV.Lib.LeadingInt

/-!
# The options of the server

Model of `ServerConfig` and `parseArguments` (source `tcp_server.cpp`): pairs of an option and its
value, of which the last one of each kind counts. A value that is refused ends the program, so what
the source has stored of it before does not matter.
-/

namespace FlashKV

structure ServerConfig where
  bindAddress : Bytes := ascii "127.0.0.1"
  port : Int := 6379
  appendOnly : Bool := true
  aofPath : Bytes := ascii "flashkv.aof"
  maxMemory : Nat := 0
  evictionPolicy : EvictionPolicy := .noEviction
  hz : Int := 10
  deriving DecidableEq

/-- `std::stoi`, which throws where this is `none`. -/
def stoi (text : Bytes) : Option Int :=
  Decimal.leadingInt (-2 ^ 31) (2 ^ 31 - 1) text

/-- One round of the loop of `parseArguments`: an option that is not known, a value that is refused,
or the configuration with the value. -/
inductive OptionOutcome where
  | unknown
  | invalid
  | accepted (config : ServerConfig)
  deriving DecidableEq

/-- A value that may be refused. -/
def OptionOutcome.of (config : Option ServerConfig) : OptionOutcome :=
  config.elim .invalid .accepted

def applyOption (option value : Bytes) (config : ServerConfig) : OptionOutcome :=
  if option = ascii "--bind" then .accepted { config with bindAddress := value }
  else if option = ascii "--port" then
    .of ((stoi value).bind fun port =>
      if port ≤ 0 ∨ port > 65535 then none else some { config with port := port })
  else if option = ascii "--appendonly" then
    if value = ascii "yes" ∨ value = ascii "no" then
      .accepted { config with appendOnly := value = ascii "yes" }
    else .invalid
  else if option = ascii "--aof" then .accepted { config with aofPath := value }
  else if option = ascii "--maxmemory" then
    .of ((parseMemorySize value).map fun bytes => { config with maxMemory := bytes })
  else if option = ascii "--maxmemory-policy" then
    .of ((parseEvictionPolicy value).map fun policy => { config with evictionPolicy := policy })
  else if option = ascii "--hz" then
    .of ((stoi value).bind fun hz =>
      if hz < 1 ∨ hz > 500 then none else some { config with hz := hz })
  else .unknown

/-- How `parseArguments` ends: with a configuration, with the usage and a successful exit, or with a
message. -/
inductive ParsedArguments where
  | config (config : ServerConfig)
  | help
  | refused (message : Bytes)
  deriving DecidableEq

/-- Source `parseArguments`, the name of the program being dropped. -/
def parseArguments : List Bytes → ServerConfig → ParsedArguments
  | [], config => .config config
  | option :: rest, config =>
    if option = ascii "--help" ∨ option = ascii "-h" then .help
    else
      match rest with
      | [] => .refused (ascii "Missing value for " ++ option)
      | value :: rest =>
        match applyOption option value config with
        | .unknown => .refused (ascii "Unknown option: " ++ option)
        | .invalid => .refused (ascii "Invalid value for " ++ option ++ ascii ": " ++ value)
        | .accepted config => parseArguments rest config

/-! ### Sizes of memory -/

/-- A unit of memory, in lower case, and its number of bytes. -/
inductive MemoryUnit : Bytes → Nat → Prop where
  | none : MemoryUnit [] 1
  | b : MemoryUnit (ascii "b") 1
  | k : MemoryUnit (ascii "k") 1000
  | kb : MemoryUnit (ascii "kb") 1024
  | m : MemoryUnit (ascii "m") (1000 * 1000)
  | mb : MemoryUnit (ascii "mb") (1024 * 1024)
  | g : MemoryUnit (ascii "g") (1000 * 1000 * 1000)
  | gb : MemoryUnit (ascii "gb") (1024 * 1024 * 1024)

/-- The text is this number of bytes: a number and perhaps a unit, in letters of either case. -/
inductive MemorySize : Bytes → Nat → Prop where
  | intro {digits unit : Bytes} {multiplier : Nat} :
    digits ≠ [] →
    (∀ b ∈ digits, Decimal.isDigit b = true) →
    MemoryUnit (lowercase unit) multiplier →
    Decimal.value digits * multiplier < 2 ^ 64 →
    MemorySize (digits ++ unit) (Decimal.value digits * multiplier)

section MemorySize

variable {text : Bytes} {multiplier bytes : Nat}

lemma MemoryUnit.pos (h : MemoryUnit text multiplier) : 0 < multiplier := by
  cases h <;> decide

/-- A unit does not start with a digit. -/
lemma MemoryUnit.head_lowercase (h : MemoryUnit text multiplier) :
    ∀ b ∈ text.head?, Decimal.isDigit b = false := by
  intro b mem
  cases h <;> cases mem <;> rfl

lemma MemoryUnit.head (h : MemoryUnit (lowercase text) multiplier) :
    ∀ b ∈ text.head?, Decimal.isDigit b = false := by
  intro b mem
  obtain ⟨rest, rfl⟩ := List.head?_eq_some_iff.mp mem
  cases digit : Decimal.isDigit b with
  | false => rfl
  | true =>
    have range := Bool.and_eq_true_iff.mp digit
    have kept : ¬ (65 ≤ b ∧ b ≤ 90) := by
      rintro ⟨low, _⟩
      have high := of_decide_eq_true range.2
      rw [UInt8.le_iff_toNat_le] at low
      simp at low
      omega
    have letter := h.head_lowercase b (by rw [lowercase, List.map_cons, if_neg kept]; rfl)
    rw [digit] at letter
    cases letter

/-- What `parseMemorySize` makes of the unit, whatever it does with its number of bytes. -/
lemma bind_unit_iff {lower : Bytes} {use : Nat → Option Nat} :
    (if lower = [] ∨ lower = ascii "b" then some 1 >>= use
      else if lower = ascii "k" then some 1000 >>= use
      else if lower = ascii "kb" then some 1024 >>= use
      else if lower = ascii "m" then some (1000 * 1000) >>= use
      else if lower = ascii "mb" then some (1024 * 1024) >>= use
      else if lower = ascii "g" then some (1000 * 1000 * 1000) >>= use
      else if lower = ascii "gb" then some (1024 * 1024 * 1024) >>= use
      else none >>= use) = some bytes ↔
    ∃ multiplier, MemoryUnit lower multiplier ∧ use multiplier = some bytes := by
  constructor
  · intro h
    split at h
    · rename_i unit
      rcases unit with rfl | rfl
      · exact ⟨_, .none, h⟩
      · exact ⟨_, .b, h⟩
    split at h
    · rename_i unit
      exact ⟨_, unit ▸ .k, h⟩
    split at h
    · rename_i unit
      exact ⟨_, unit ▸ .kb, h⟩
    split at h
    · rename_i unit
      exact ⟨_, unit ▸ .m, h⟩
    split at h
    · rename_i unit
      exact ⟨_, unit ▸ .mb, h⟩
    split at h
    · rename_i unit
      exact ⟨_, unit ▸ .g, h⟩
    split at h
    · rename_i unit
      exact ⟨_, unit ▸ .gb, h⟩
    · cases h
  · rintro ⟨multiplier, unit, used⟩
    cases unit <;> exact used

/-- What `parseMemorySize` reads is a size, and all sizes are read. -/
lemma parseMemorySize_eq_some_iff : parseMemorySize text = some bytes ↔ MemorySize text bytes := by
  constructor
  · intro h
    obtain ⟨amount, read, h⟩ := Option.bind_eq_some_iff.mp (show Option.bind _ _ = _ from h)
    obtain ⟨nonempty, digits, rfl⟩ := Decimal.parseNat_eq_some_iff.mp read
    obtain ⟨_, h⟩ := Option.ite_none_left_eq_some.mp h
    obtain ⟨multiplier, unit, h⟩ := bind_unit_iff.mp h
    obtain ⟨bounded, same⟩ := Option.ite_none_left_eq_some.mp h
    rw [List.prefix_append_drop (List.takeWhile_prefix (p := Decimal.isDigit) (l := text)),
      ← Option.some.inj same]
    exact .intro nonempty digits unit (Nat.lt_of_not_le bounded)
  · rintro ⟨nonempty, digits, unit, fits⟩
    have read := Decimal.parseNat_eq_some_iff.mpr ⟨nonempty, digits, rfl⟩
    have small := lt_of_le_of_lt (Nat.le_mul_of_pos_right _ unit.pos) fits
    unfold parseMemorySize
    dsimp only
    rw [(Decimal.takeWhile_of_head digits unit.head).1, read, List.drop_left]
    refine (if_neg (Nat.not_le.mpr small)).trans ?_
    exact bind_unit_iff.mpr ⟨_, unit, if_neg (Nat.not_le.mpr fits)⟩

end MemorySize

/-! ### The language of the options -/

/-- What an option sets. -/
inductive Setting where
  | bindAddress (address : Bytes)
  | port (port : Int)
  | appendOnly (enabled : Bool)
  | aofPath (path : Bytes)
  | maxMemory (bytes : Nat)
  | evictionPolicy (policy : EvictionPolicy)
  | hz (hz : Int)

/-- The option and its value are this setting. -/
inductive Setting.Written : Bytes → Bytes → Setting → Prop where
  | bind {value} : Written (ascii "--bind") value (.bindAddress value)
  | port {value port} :
    Decimal.Leading value port →
    0 < port → port ≤ 65535 →
    Written (ascii "--port") value (.port port)
  | appendOnly : Written (ascii "--appendonly") (ascii "yes") (.appendOnly true)
  | noAppendOnly : Written (ascii "--appendonly") (ascii "no") (.appendOnly false)
  | aof {value} : Written (ascii "--aof") value (.aofPath value)
  | maxMemory {value bytes} :
    MemorySize value bytes →
    Written (ascii "--maxmemory") value (.maxMemory bytes)
  | policy {policy} :
    Written (ascii "--maxmemory-policy") (evictionPolicyName policy) (.evictionPolicy policy)
  | hz {value hz} :
    Decimal.Leading value hz →
    1 ≤ hz → hz ≤ 500 →
    Written (ascii "--hz") value (.hz hz)

/-- The arguments are these settings, one after the other. -/
inductive Settings : List Bytes → List Setting → Prop where
  | nil : Settings [] []
  | cons {option value setting rest settings} :
    Setting.Written option value setting →
    Settings rest settings →
    Settings (option :: value :: rest) (setting :: settings)

namespace Setting

def bindAddress? : Setting → Option Bytes
  | .bindAddress address => some address
  | _ => none

def port? : Setting → Option Int
  | .port number => some number
  | _ => none

def appendOnly? : Setting → Option Bool
  | .appendOnly enabled => some enabled
  | _ => none

def aofPath? : Setting → Option Bytes
  | .aofPath path => some path
  | _ => none

def maxMemory? : Setting → Option Nat
  | .maxMemory bytes => some bytes
  | _ => none

def evictionPolicy? : Setting → Option EvictionPolicy
  | .evictionPolicy policy => some policy
  | _ => none

def hz? : Setting → Option Int
  | .hz frequency => some frequency
  | _ => none

end Setting

/-- The last setting of a kind, or what was there before. -/
def lastOr {α β : Type} (select : α → Option β) (before : β) (settings : List α) : β :=
  (settings.filterMap select).getLast?.getD before

/-- The configuration after some settings: of each kind the last one counts. -/
def ServerConfig.after (config : ServerConfig) (settings : List Setting) : ServerConfig where
  bindAddress := lastOr Setting.bindAddress? config.bindAddress settings
  port := lastOr Setting.port? config.port settings
  appendOnly := lastOr Setting.appendOnly? config.appendOnly settings
  aofPath := lastOr Setting.aofPath? config.aofPath settings
  maxMemory := lastOr Setting.maxMemory? config.maxMemory settings
  evictionPolicy := lastOr Setting.evictionPolicy? config.evictionPolicy settings
  hz := lastOr Setting.hz? config.hz settings

section Settings

variable {option value : Bytes} {setting : Setting} {config : ServerConfig}

lemma lastOr_cons {α β : Type} (select : α → Option β) (before : β) (a : α) (settings : List α) :
    lastOr select before (a :: settings) = lastOr select ((select a).getD before) settings := by
  unfold lastOr
  cases chosen : select a with
  | none => rw [List.filterMap_cons_none chosen, Option.getD_none]
  | some b =>
    rw [List.filterMap_cons_some chosen, Option.getD_some, List.getLast?_cons, Option.getD_some]

/-- A setting on its own. -/
def ServerConfig.put (config : ServerConfig) (setting : Setting) : ServerConfig :=
  config.after [setting]

lemma ServerConfig.after_cons (config : ServerConfig) (setting : Setting) (settings : List Setting) :
    config.after (setting :: settings) = (config.put setting).after settings := by
  simp only [after, put, lastOr_cons]
  rfl

lemma stoi_eq_some_iff {z : Int} :
    stoi value = some z ↔ Decimal.Leading value z ∧ -2 ^ 31 ≤ z ∧ z ≤ 2 ^ 31 - 1 :=
  Decimal.leadingInt_eq_some_iff

lemma parseEvictionPolicy_iff {policy : EvictionPolicy} :
    parseEvictionPolicy value = some policy ↔ value = evictionPolicyName policy := by
  unfold parseEvictionPolicy
  constructor
  · intro h
    split at h
    · cases h
      assumption
    · split at h
      · cases h
        assumption
      · cases h
  · rintro rfl
    cases policy <;> decide

/-- A setting that is written is accepted. -/
lemma Setting.Written.applyOption (h : Setting.Written option value setting) (config : ServerConfig) :
    FlashKV.applyOption option value config = .accepted (config.put setting) := by
  cases h with
  | bind => rw [FlashKV.applyOption, if_pos rfl]; rfl
  | appendOnly =>
    rw [FlashKV.applyOption, if_neg (by decide), if_neg (by decide), if_pos rfl, if_pos (.inl rfl)]
    rfl
  | noAppendOnly =>
    rw [FlashKV.applyOption, if_neg (by decide), if_neg (by decide), if_pos rfl, if_pos (.inr rfl)]
    rfl
  | aof =>
    rw [FlashKV.applyOption, if_neg (by decide), if_neg (by decide), if_neg (by decide), if_pos rfl]
    rfl
  | @port _ port leading low high =>
    have read : stoi value = some port := stoi_eq_some_iff.mpr ⟨leading, by omega, by omega⟩
    rw [FlashKV.applyOption, if_neg (by decide), if_pos rfl, read, Option.bind_some,
      if_neg (by omega)]
    rfl
  | maxMemory size =>
    rw [FlashKV.applyOption, if_neg (by decide), if_neg (by decide), if_neg (by decide),
      if_neg (by decide), if_pos rfl, parseMemorySize_eq_some_iff.mpr size]
    rfl
  | @policy policy =>
    rw [FlashKV.applyOption, if_neg (by decide), if_neg (by decide), if_neg (by decide),
      if_neg (by decide), if_neg (by decide), if_pos rfl, parseEvictionPolicy_iff.mpr rfl]
    rfl
  | @hz _ hz leading low high =>
    have read : stoi value = some hz := stoi_eq_some_iff.mpr ⟨leading, by omega, by omega⟩
    rw [FlashKV.applyOption, if_neg (by decide), if_neg (by decide), if_neg (by decide),
      if_neg (by decide), if_neg (by decide), if_neg (by decide), if_pos rfl, read,
      Option.bind_some, if_neg (by omega)]
    rfl

/-- An accepted value. -/
lemma OptionOutcome.of_eq_accepted {result : Option ServerConfig} {next : ServerConfig}
    (h : OptionOutcome.of result = .accepted next) : result = some next := by
  cases result with
  | none => cases h
  | some config =>
    cases h
    rfl

/-- What is accepted is a setting that is written. -/
lemma written_of_accepted {next : ServerConfig} (h : applyOption option value config = .accepted next) :
    ∃ setting, Setting.Written option value setting ∧ next = config.put setting := by
  unfold applyOption at h
  split at h
  · rename_i named
    subst named
    cases h
    exact ⟨_, .bind, rfl⟩
  split at h
  · rename_i named
    subst named
    obtain ⟨port, read, inRange⟩ := Option.bind_eq_some_iff.mp (OptionOutcome.of_eq_accepted h)
    split at inRange
    · cases inRange
    · rename_i range
      cases inRange
      have leading := (stoi_eq_some_iff.mp read).1
      exact ⟨_, .port leading (by omega) (by omega), rfl⟩
  split at h
  · rename_i named
    subst named
    split at h
    · rename_i either
      cases h
      rcases either with rfl | rfl
      · exact ⟨_, .appendOnly, rfl⟩
      · exact ⟨_, .noAppendOnly, rfl⟩
    · cases h
  split at h
  · rename_i named
    subst named
    cases h
    exact ⟨_, .aof, rfl⟩
  split at h
  · rename_i named
    subst named
    obtain ⟨bytes, read, rfl⟩ := Option.map_eq_some_iff.mp (OptionOutcome.of_eq_accepted h)
    exact ⟨_, .maxMemory (parseMemorySize_eq_some_iff.mp read), rfl⟩
  split at h
  · rename_i named
    subst named
    obtain ⟨policy, read, rfl⟩ := Option.map_eq_some_iff.mp (OptionOutcome.of_eq_accepted h)
    obtain rfl := parseEvictionPolicy_iff.mp read
    exact ⟨_, .policy, rfl⟩
  split at h
  · rename_i named
    subst named
    obtain ⟨hz, read, inRange⟩ := Option.bind_eq_some_iff.mp (OptionOutcome.of_eq_accepted h)
    split at inRange
    · cases inRange
    · rename_i range
      cases inRange
      have leading := (stoi_eq_some_iff.mp read).1
      exact ⟨_, .hz leading (by omega) (by omega), rfl⟩
  · cases h

/-- No setting is written like a call for help. -/
lemma Setting.Written.not_help (h : Setting.Written option value setting) :
    ¬ (option = ascii "--help" ∨ option = ascii "-h") := by
  cases h <;> decide

/-- One round of the loop of `parseArguments`. -/
lemma Setting.Written.parseArguments (h : Setting.Written option value setting) (rest : List Bytes)
    (config : ServerConfig) :
    FlashKV.parseArguments (option :: value :: rest) config =
      FlashKV.parseArguments rest (config.put setting) := by
  rw [FlashKV.parseArguments.eq_def]
  dsimp only
  rw [if_neg h.not_help, h.applyOption config]

end Settings

/-- The settings of a configuration that the server can run with. -/
structure ServerConfig.Valid (config : ServerConfig) : Prop where
  port : 0 < config.port ∧ config.port ≤ 65535
  hz : 1 ≤ config.hz ∧ config.hz ≤ 500

section Language

variable {arguments : List Bytes} {config next : ServerConfig}

/-- Settings are parsed one after the other. -/
lemma Settings.parseArguments {settings : List Setting} (h : Settings arguments settings)
    (rest : List Bytes) (config : ServerConfig) :
    FlashKV.parseArguments (arguments ++ rest) config =
      FlashKV.parseArguments rest (config.after settings) := by
  induction h generalizing config with
  | nil => rfl
  | cons written _ ih =>
    rw [List.cons_append, List.cons_append, written.parseArguments, ih,
      ServerConfig.after_cons]

/-- What `parseArguments` accepts are settings, and help is asked for after settings. -/
lemma parseArguments_sound (arguments : List Bytes) (config : ServerConfig) :
    (∀ next, parseArguments arguments config = .config next →
      ∃ settings, Settings arguments settings ∧ next = config.after settings) ∧
    (parseArguments arguments config = .help → ∃ first rest settings, arguments = first ++ rest ∧
      Settings first settings ∧
      (rest.head? = some (ascii "--help") ∨ rest.head? = some (ascii "-h"))) := by
  fun_induction parseArguments arguments config with
  | case1 config =>
    refine ⟨fun next same => ?_, nofun⟩
    cases same
    exact ⟨[], .nil, rfl⟩
  | case2 option rest config help =>
    refine ⟨nofun, fun _ => ⟨[], option :: rest, [], rfl, .nil, ?_⟩⟩
    exact help.imp (congrArg some) (congrArg some)
  | case3 => exact ⟨nofun, nofun⟩
  | case4 => exact ⟨nofun, nofun⟩
  | case5 => exact ⟨nofun, nofun⟩
  | case6 option config _ value rest next accepted ih =>
    obtain ⟨setting, written, rfl⟩ := written_of_accepted accepted
    refine ⟨fun last parsed => ?_, fun asked => ?_⟩
    · obtain ⟨settings, rest, rfl⟩ := ih.1 last parsed
      exact ⟨_, .cons written rest, (config.after_cons setting settings).symm⟩
    · obtain ⟨first, rest, settings, rfl, parsed, help⟩ := ih.2 asked
      exact ⟨_, rest, _, rfl, .cons written parsed, help⟩

lemma ServerConfig.Valid.put {setting : Setting} {option value : Bytes} (h : config.Valid)
    (written : Setting.Written option value setting) : (config.put setting).Valid := by
  cases written with
  | port _ low high => exact ⟨⟨low, high⟩, h.hz⟩
  | hz _ low high => exact ⟨h.port, ⟨low, high⟩⟩
  | bind | appendOnly | noAppendOnly | aof | maxMemory | policy => exact ⟨h.port, h.hz⟩

lemma ServerConfig.Valid.after {settings : List Setting} (h : config.Valid)
    (written : Settings arguments settings) : (config.after settings).Valid := by
  induction written generalizing config with
  | nil => exact h
  | cons written _ ih =>
    rw [ServerConfig.after_cons]
    exact ih (h.put written)

/-- The options that the server accepts are the sequences of settings: of each kind of setting the
last one counts, and the configuration is one that the server can run with. Help is given exactly if
it is asked for after settings; everything else is refused. -/
theorem parseArguments_language (arguments : List Bytes) :
    (∀ config, parseArguments arguments {} = .config config ↔
      ∃ settings, Settings arguments settings ∧ config = ServerConfig.after {} settings) ∧
    (∀ config, parseArguments arguments {} = .config config → config.Valid) ∧
    (parseArguments arguments {} = .help ↔ ∃ first rest settings, arguments = first ++ rest ∧
      Settings first settings ∧
      (rest.head? = some (ascii "--help") ∨ rest.head? = some (ascii "-h"))) := by
  obtain ⟨accepted, helped⟩ := parseArguments_sound arguments {}
  refine ⟨fun config => ⟨accepted config, ?_⟩, fun config parsed => ?_, helped, ?_⟩
  · rintro ⟨settings, written, rfl⟩
    have parsed := written.parseArguments [] {}
    rwa [List.append_nil] at parsed
  · obtain ⟨settings, written, rfl⟩ := accepted config parsed
    have default : ({} : ServerConfig).Valid := ⟨by decide, by decide⟩
    exact default.after written
  · rintro ⟨first, rest, settings, rfl, written, help⟩
    rw [written.parseArguments]
    rcases help with asked | asked
    · obtain ⟨others, rfl⟩ := List.head?_eq_some_iff.mp asked
      rw [parseArguments.eq_def]
      exact if_pos (.inl rfl)
    · obtain ⟨others, rfl⟩ := List.head?_eq_some_iff.mp asked
      rw [parseArguments.eq_def]
      exact if_pos (.inr rfl)

example : parseArguments [ascii "--port", ascii " +80x", ascii "--hz", ascii "5", ascii "--port",
    ascii "81"] {} = .config { port := 81, hz := 5 } := by decide

end Language

end FlashKV
