import FlashKV.Command.Processor
import FlashKV.Resp.Format

/-!
# The demo page

Model of `flashkv_wasm.cpp`, which runs one processor without a log in the browser: the page executes
command lines, ticks the background expiration, and reads the keyspace as a JSON text. A text is
written by appending to it, as in the source.
-/

namespace FlashKV

open Database

namespace Demo

/-- One round of `appendJsonString`. -/
def appendJsonCharacter (json : Bytes) (character : UInt8) : Bytes :=
  if character = 34 then json ++ [92, 34]
  else if character = 92 then json ++ [92, 92]
  else if character = 10 then json ++ [92, 110]
  else if character = 13 then json ++ [92, 114]
  else if character = 9 then json ++ [92, 116]
  else if character < 32 then
    json ++ [92, 117, 48, 48, hexDigit (character.toNat / 16), hexDigit (character.toNat % 16)]
  else json ++ [character]

def appendJsonString (json value : Bytes) : Bytes :=
  value.foldl appendJsonCharacter (json ++ [34]) ++ [34]

def previewItems : Nat := 6
def previewChars : Nat := 48

/-- Source `truncate`: an ellipsis in UTF-8 stands for the rest. -/
def truncate (value : Bytes) : Bytes :=
  if value.length ≤ previewChars then value else substr value 0 previewChars ++ [226, 128, 166]

/-- The items that `appendPreview` shows of a value that is no string, and how many there are. -/
def previewOf : Value → List Bytes × Nat
  | .string _ => ([], 0)
  | .list list => ((list.take previewItems).map truncate, list.length)
  | .hash hash =>
    let fields := hash.entries.map fun e => truncate e.1 ++ ascii ": " ++ truncate e.2
    ((fields.insertionSort (· ≤ ·)).take previewItems, hash.entries.length)
  | .set members => (((sortedMembers members).take previewItems).map truncate, members.card)

/-- The loop over the items, from the one numbered `i` on. -/
def appendItems : Nat → Bytes → List Bytes → Bytes
  | _, json, [] => json
  | i, json, item :: items =>
    appendItems (i + 1) (appendJsonString (if i > 0 then json ++ [44] else json) item) items

def appendPreview (json : Bytes) (value : Value) : Bytes :=
  let json := json ++ ascii "\"length\":"
  match value with
  | .string text =>
    appendJsonString (json ++ (Decimal.ofNat text.length ++ ascii ",\"preview\":")) (truncate text)
  | value =>
    let (items, length) := previewOf value
    appendItems 0 (json ++ (Decimal.ofNat length ++ ascii ",\"preview\":[")) items ++ [93]

/-- One key of `flashkv_state_json`. -/
def appendKey (json key : Bytes) (info : KeyInfo) : Bytes :=
  let json := appendJsonString (json ++ ascii "\x7b\"key\":") key
  let json := json ++ ascii ",\"type\":\"" ++ valueTypeName info.type
  let json := json ++ (ascii "\",\"ttlMs\":" ++ Decimal.ofInt info.ttlMs)
  let json := json ++ (ascii ",\"memory\":" ++ Decimal.ofNat info.memory ++ ascii ",")
  appendPreview json info.value ++ [125]

/-- The loop of `flashkv_state_json`. `now` is what the clock shows when a key is inspected. -/
def appendKeys (now : Bytes → Int) (db : Database) : Bool → Bytes → List Bytes → Bytes
  | _, json, [] => json
  | first, json, key :: keys =>
    (db.inspect key (now key)).elim (appendKeys now db first json keys) fun info =>
      appendKeys now db false (appendKey (if first then json else json ++ [44]) key info) keys

/-- Source `flashkv_state_json`. -/
def stateJson (now : Bytes → Int) (processor : Processor) : Bytes :=
  let db := processor.database
  let stats := db.statistics
  let json := ascii "\x7b\"usedMemory\":" ++ Decimal.ofNat db.memoryUsed ++
    ascii ",\"maxMemory\":" ++ Decimal.ofNat db.memoryLimit ++
    ascii ",\"policy\":\"" ++ evictionPolicyName db.policy ++
    ascii "\",\"expiredKeys\":" ++ Decimal.ofNat stats.expiredKeys ++
    ascii ",\"evictedKeys\":" ++ Decimal.ofNat stats.evictedKeys ++
    ascii ",\"hits\":" ++ Decimal.ofNat stats.keyspaceHits ++
    ascii ",\"misses\":" ++ Decimal.ofNat stats.keyspaceMisses ++
    ascii ",\"commands\":" ++ Decimal.ofNat processor.stats.totalCommands ++
    ascii ",\"keys\":["
  appendKeys now db true json db.keysByRecency ++ ascii "]\x7d"

/-- Source `flashkv_execute`: the reply as `redis-cli` shows it, after its kind. -/
def execute (line : Bytes) (now : Int) (processor : Processor) : Checked Bytes × Processor :=
  match tokenizeCommandLine line with
  | none => (pure (ascii "e(error) Invalid argument(s): unbalanced quotes"), processor)
  | some [] => (pure [], processor)
  | some (name :: arguments) =>
    let (reply, _, processor) := processor.execute .detached now (name :: arguments)
    let formatted := formatReply reply.payload (uppercase name = ascii "INFO")
    let kind :=
      if reply.payload.head? = some 45 then 101
      else if reply.payload = ascii "$-1\r\n" then 110
      else 118
    (formatted.map (kind :: ·), processor)

/-- Source `flashkv_tick`. -/
def tick (choices : CycleChoices) (now : Int) (processor : Processor) :
    Except DbError Nat × Processor :=
  let (removed, database) := activeExpireCycle choices 20 now processor.database
  (removed, { processor with database := database })

/-- A call that changes something. -/
inductive Call where
  | execute (line : Bytes) (now : Int)
  | tick (choices : CycleChoices) (now : Int)

def step (processor : Processor) : Call → Processor
  | .execute line now => (execute line now processor).2
  | .tick choices now => (tick choices now processor).2

def run (calls : List Call) : Processor :=
  calls.foldl step {}

end Demo

end FlashKV
