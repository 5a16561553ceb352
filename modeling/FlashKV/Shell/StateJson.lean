import FlashKV.Command.Reachable
import FlashKV.Database.Frame
import FlashKV.Lib.Json
import FlashKV.Resp.Rendering
import FlashKV.Shell.Demo

/-!
# The keyspace as the demo page sees it

The text that `flashkv_state_json` appends piece by piece is the text of a JSON value, the snapshot:
the counters, and every live key once, the most recently used first, with its type, its time to live,
its size and the first items of its value. If the keys and the items shown are UTF-8, the page reads
back exactly this value. Keys and values can be any bytes, and an item is cut after 48 bytes, even in
the middle of a character; then the text is no JSON.
-/

namespace FlashKV

open Database

namespace Demo

/-! ### The value behind the text -/

/-- The keys that are inspected without being missing, and what is found. -/
def listed (now : Bytes → Int) (db : Database) : List (Bytes × KeyInfo) :=
  db.keysByRecency.filterMap fun key => (db.inspect key (now key)).map fun info => (key, info)

/-- The length of a value and its first items. -/
def previewTree : Value → List (Bytes × Json)
  | .string text =>
    [(ascii "length", .number text.length), (ascii "preview", .string (truncate text))]
  | value =>
    [(ascii "length", .number (previewOf value).2),
      (ascii "preview", .array ((previewOf value).1.map .string))]

def keyTree (listed : Bytes × KeyInfo) : Json :=
  .object ([(ascii "key", .string listed.1), (ascii "type", .string (valueTypeName listed.2.type)),
    (ascii "ttlMs", .number listed.2.ttlMs), (ascii "memory", .number listed.2.memory)] ++
    previewTree listed.2.value)

def stateTree (now : Bytes → Int) (processor : Processor) : Json :=
  let db := processor.database
  let stats := db.statistics
  .object [(ascii "usedMemory", .number db.memoryUsed), (ascii "maxMemory", .number db.memoryLimit),
    (ascii "policy", .string (evictionPolicyName db.policy)),
    (ascii "expiredKeys", .number stats.expiredKeys), (ascii "evictedKeys", .number stats.evictedKeys),
    (ascii "hits", .number stats.keyspaceHits), (ascii "misses", .number stats.keyspaceMisses),
    (ascii "commands", .number processor.stats.totalCommands),
    (ascii "keys", .array ((listed now db).map keyTree))]

/-- The strings that are shown of a value. -/
def previews : Value → List Bytes
  | .string text => [truncate text]
  | value => (previewOf value).1

/-- Are the keys and what is shown of their values UTF-8? -/
def Readable (listed : List (Bytes × KeyInfo)) : Prop :=
  ∀ entry ∈ listed, Utf8 entry.1 ∧ ∀ item ∈ previews entry.2.value, Utf8 item

instance (listed : List (Bytes × KeyInfo)) : Decidable (Readable listed) :=
  inferInstanceAs (Decidable (∀ entry ∈ listed, _))

/-! ### Appending -/

section Append

lemma appendJsonCharacter_eq (json : Bytes) (character : UInt8) :
    appendJsonCharacter json character = json ++ Json.escape character := by
  unfold appendJsonCharacter Json.escape
  split_ifs <;> rfl

lemma appendJsonString_eq (json value : Bytes) :
    appendJsonString json value = json ++ Json.renderString value := by
  have all : ∀ json : Bytes, value.foldl appendJsonCharacter json =
      json ++ value.flatMap Json.escape := by
    induction value with
    | nil => simp
    | cons character value ih =>
      intro json
      rw [List.foldl_cons, ih, appendJsonCharacter_eq, List.flatMap_cons, List.append_assoc]
  rw [appendJsonString, all, Json.renderString]
  simp

/-- The items after the first one. -/
lemma appendItems_later (i : Nat) (json : Bytes) (items : List Bytes) :
    appendItems (i + 1) json items =
      json ++ ((items.map Json.renderString).map ([44] ++ ·)).flatten := by
  induction items generalizing i json with
  | nil => simp [appendItems]
  | cons item items ih =>
    rw [appendItems, if_pos (Nat.succ_pos i), ih, appendJsonString_eq]
    simp

lemma appendItems_eq (json : Bytes) (items : List Bytes) :
    appendItems 0 json items = json ++ List.intercalate [44] (items.map Json.renderString) := by
  cases items with
  | nil => simp [appendItems, List.intercalate]
  | cons item items =>
    rw [appendItems, if_neg (Nat.lt_irrefl 0), appendItems_later, appendJsonString_eq, List.map_cons,
      ReplyReader.intercalate_cons_flatten, List.append_assoc]

/-- An array of strings. -/
lemma render_strings (texts : List Bytes) :
    Json.render (.array (texts.map .string)) =
      91 :: (List.intercalate [44] (texts.map Json.renderString) ++ [93]) := by
  rw [Json.render, Json.renderEach_eq, List.map_map]
  rfl

lemma ofInt_natCast (n : Nat) : Decimal.ofInt n = Decimal.ofNat n := by
  rw [Decimal.ofInt_of_nonneg (Int.natCast_nonneg n), Int.toNat_natCast]

/-- What is appended for a value are the last members of an object. -/
lemma appendPreview_eq (json : Bytes) (value : Value) :
    appendPreview json value =
      json ++ List.intercalate [44] (Json.renderMembers (previewTree value)) := by
  have length : ascii "\"length\":" = Json.renderString (ascii "length") ++ [58] := by decide
  have preview : ascii ",\"preview\":" = [44] ++ Json.renderString (ascii "preview") ++ [58] := by
    decide
  have bracket : ascii ",\"preview\":[" = ascii ",\"preview\":" ++ [91] := by decide
  cases value with
  | string text =>
    rw [appendPreview, previewTree, appendJsonString_eq, length, preview]
    simp [Json.renderMembers, Json.render, List.intercalate_cons_cons, ofInt_natCast]
  | list | hash | set =>
    rw [appendPreview, previewTree, length, bracket, preview]
    · dsimp only
      rw [appendItems_eq, Json.renderMembers, Json.renderMembers, Json.renderMembers, render_strings,
        Json.render]
      simp [List.intercalate_cons_cons, ofInt_natCast]
    · intro text same
      cases same
    · intro text same
      cases same

lemma escape_typeName (type : ValueType) :
    Json.renderString (valueTypeName type) = 34 :: (valueTypeName type ++ [34]) := by
  cases type <;> decide

lemma escape_policyName (policy : EvictionPolicy) :
    Json.renderString (evictionPolicyName policy) = 34 :: (evictionPolicyName policy ++ [34]) := by
  cases policy <;> decide

lemma appendKey_eq (json key : Bytes) (info : KeyInfo) :
    appendKey json key info = json ++ Json.render (keyTree (key, info)) := by
  have first : ascii "\x7b\"key\":" = 123 :: (Json.renderString (ascii "key") ++ [58]) := by decide
  have type : ascii ",\"type\":\"" = [44] ++ Json.renderString (ascii "type") ++ [58, 34] := by decide
  have ttl : ascii "\",\"ttlMs\":" = [34, 44] ++ Json.renderString (ascii "ttlMs") ++ [58] := by
    decide
  have memory : ascii ",\"memory\":" = [44] ++ Json.renderString (ascii "memory") ++ [58] := by decide
  have comma : ascii "," = [44] := rfl
  obtain ⟨m, ms, split⟩ : ∃ m ms, previewTree info.value = m :: ms := by
    cases info.value <;> exact ⟨_, _, rfl⟩
  rw [appendKey, appendPreview_eq, appendJsonString_eq, keyTree, Json.render, split]
  simp [Json.renderMembers, Json.render, List.intercalate_cons_cons, ofInt_natCast, escape_typeName,
    first, type, ttl, memory, comma]

/-- The texts of the keys that the loop lists. -/
def keyTexts (now : Bytes → Int) (db : Database) (keys : List Bytes) : List Bytes :=
  keys.filterMap fun key => (db.inspect key (now key)).map fun info => Json.render (keyTree (key, info))

variable {now : Bytes → Int} {db : Database}

/-- The keys after the first one that is listed. -/
lemma appendKeys_later (json : Bytes) (keys : List Bytes) :
    appendKeys now db false json keys =
      json ++ ((keyTexts now db keys).map ([44] ++ ·)).flatten := by
  induction keys generalizing json with
  | nil => simp [appendKeys, keyTexts]
  | cons key keys ih =>
    rw [appendKeys, keyTexts, List.filterMap_cons]
    cases found : db.inspect key (now key) with
    | none => exact ih json
    | some info =>
      rw [Option.elim_some, ih, appendKey_eq]
      simp [keyTexts]

lemma appendKeys_eq (json : Bytes) (keys : List Bytes) :
    appendKeys now db true json keys = json ++ List.intercalate [44] (keyTexts now db keys) := by
  induction keys with
  | nil => simp [appendKeys, keyTexts, List.intercalate]
  | cons key keys ih =>
    rw [appendKeys, keyTexts, List.filterMap_cons]
    cases found : db.inspect key (now key) with
    | none => exact ih
    | some info =>
      rw [Option.elim_some, appendKeys_later, appendKey_eq, Option.map_some]
      dsimp only
      rw [ReplyReader.intercalate_cons_flatten, if_pos rfl, List.append_assoc]
      rfl

lemma keyTexts_eq (keys : List Bytes) :
    keyTexts now db keys = ((keys.filterMap fun key =>
      (db.inspect key (now key)).map fun info => (key, info)).map keyTree).map Json.render := by
  rw [keyTexts, List.map_map, List.map_filterMap]
  refine List.filterMap_congr fun key _ => ?_
  cases db.inspect key (now key) <;> rfl

/-- The text is that of the value. -/
lemma stateJson_eq (processor : Processor) :
    stateJson now processor = Json.render (stateTree now processor) := by
  have used : ascii "\x7b\"usedMemory\":" = 123 :: (Json.renderString (ascii "usedMemory") ++ [58]) := by
    decide
  have limit : ascii ",\"maxMemory\":" = [44] ++ Json.renderString (ascii "maxMemory") ++ [58] := by
    decide
  have policy : ascii ",\"policy\":\"" = [44] ++ Json.renderString (ascii "policy") ++ [58, 34] := by
    decide
  have expired : ascii "\",\"expiredKeys\":" =
      [34, 44] ++ Json.renderString (ascii "expiredKeys") ++ [58] := by decide
  have evicted : ascii ",\"evictedKeys\":" =
      [44] ++ Json.renderString (ascii "evictedKeys") ++ [58] := by decide
  have hits : ascii ",\"hits\":" = [44] ++ Json.renderString (ascii "hits") ++ [58] := by decide
  have misses : ascii ",\"misses\":" = [44] ++ Json.renderString (ascii "misses") ++ [58] := by decide
  have commands : ascii ",\"commands\":" =
      [44] ++ Json.renderString (ascii "commands") ++ [58] := by decide
  have keys : ascii ",\"keys\":[" = [44] ++ Json.renderString (ascii "keys") ++ [58, 91] := by decide
  have ending : ascii "]\x7d" = [93, 125] := rfl
  rw [stateJson, appendKeys_eq, keyTexts_eq, stateTree, Json.render]
  simp [Json.renderMembers, Json.render, Json.renderEach_eq, List.intercalate_cons_cons,
    ofInt_natCast, escape_policyName, used, limit, policy, expired, evicted, hits, misses, commands,
    keys, ending, listed]

end Append

/-! ### Which snapshots are UTF-8 -/

section Utf8

/-- An object whose names are ASCII. -/
lemma utf8_members {members : List (Bytes × Json)}
    (names : members.all (·.1.all (· < 128)) = true) :
    (∀ member ∈ members, Utf8 member.1 ∧ Utf8 (Json.render member.2)) ↔
      ∀ member ∈ members, Utf8 (Json.render member.2) :=
  forall₂_congr fun member mem => and_iff_right (utf8_of_all (List.all_eq_true.mp names member mem))

lemma utf8_previewTree (value : Value) :
    (∀ member ∈ previewTree value, Utf8 member.1 ∧ Utf8 (Json.render member.2)) ↔
      ∀ item ∈ previews value, Utf8 item := by
  have length : Utf8 (ascii "length") := utf8_of_all rfl
  have preview : Utf8 (ascii "preview") := utf8_of_all rfl
  have items : ∀ texts : List Bytes,
      Utf8 (Json.render (.array (texts.map .string))) ↔ ∀ item ∈ texts, Utf8 item := by
    intro texts
    rw [Json.utf8_array, List.forall_mem_map]
    simp only [Json.utf8_string]
  cases value <;>
    simp [previewTree, previews, length, preview, items, Json.utf8_number, Json.utf8_string]

lemma utf8_keyTree (entry : Bytes × KeyInfo) :
    Utf8 (Json.render (keyTree entry)) ↔
      Utf8 entry.1 ∧ ∀ item ∈ previews entry.2.value, Utf8 item := by
  have key : Utf8 (ascii "key") := utf8_of_all rfl
  have type : Utf8 (ascii "type") := utf8_of_all rfl
  have ttl : Utf8 (ascii "ttlMs") := utf8_of_all rfl
  have memory : Utf8 (ascii "memory") := utf8_of_all rfl
  have name : Utf8 (valueTypeName entry.2.type) := by
    cases entry.2.type <;> exact utf8_of_all rfl
  rw [keyTree, Json.utf8_object, List.forall_mem_append, utf8_previewTree]
  simp [key, type, ttl, memory, name, Json.utf8_number, Json.utf8_string]

lemma utf8_stateTree (now : Bytes → Int) (processor : Processor) :
    Utf8 (Json.render (stateTree now processor)) ↔ Readable (listed now processor.database) := by
  have policy : Utf8 (evictionPolicyName processor.database.policy) := by
    cases processor.database.policy <;> exact utf8_of_all rfl
  rw [stateTree, Json.utf8_object, utf8_members rfl]
  simp only [List.forall_mem_cons, Json.utf8_number, Json.utf8_string, policy, true_and,
    Json.utf8_array, List.forall_mem_map, utf8_keyTree]
  exact and_iff_left nofun

end Utf8

/-! ### What is listed -/

section Listed

variable {now : Bytes → Int} {db : Database}

lemma mem_listed (linked : db.Linked) {key : Bytes} {info : KeyInfo} :
    (key, info) ∈ listed now db ↔ db.inspect key (now key) = some info := by
  rw [listed, List.mem_filterMap]
  constructor
  · rintro ⟨other, _, found⟩
    obtain ⟨info', found, same⟩ := Option.map_eq_some_iff.mp found
    cases same
    exact found
  · intro found
    refine ⟨key, linked.mem_keysByRecency.mpr ?_, by rw [found]; rfl⟩
    cases present : db.data.lookup key with
    | none =>
      rw [inspect, present] at found
      cases found
    | some entry => exact ⟨entry, rfl⟩

/-- The keys are listed in the order of their use. -/
lemma listed_keys (now : Bytes → Int) (db : Database) :
    (listed now db).map Prod.fst =
      db.keysByRecency.filter fun key => (db.inspect key (now key)).isSome := by
  rw [listed, List.map_filterMap, ← List.filterMap_eq_filter]
  refine List.filterMap_congr fun key _ => ?_
  cases found : db.inspect key (now key) <;> simp [found, Option.guard]

/-- The memory of an entry is what is shown. -/
lemma inspect_memory {key : Bytes} {time : Int} {info : KeyInfo}
    (found : db.inspect key time = some info) :
    ∃ entry, db.data.lookup key = some entry ∧ info.memory = entry.memory := by
  unfold inspect at found
  split at found
  · cases found
  · rename_i entry present
    refine ⟨entry, present, ?_⟩
    dsimp only at found
    split at found
    · cases found
      rfl
    · split at found
      · cases found
      · cases found
        rfl

/-- The memory that is shown for the keys is part of the memory that is used. -/
lemma listed_memory (linked : db.Linked) (accounted : db.Accounted) :
    ((listed now db).map (·.2.memory)).sum ≤ db.memoryUsed := by
  have nodup : ((listed now db).map Prod.fst).Nodup := by
    rw [listed_keys]
    exact linked.nodup.sublist List.filter_sublist
  rw [accounted.total]
  refine AList.sum_le_sumBy (fun _ (entry : Entry) => entry.memory) (·.2.memory) nodup ?_
  rintro ⟨key, info⟩ mem
  obtain ⟨entry, present, same⟩ := inspect_memory ((mem_listed linked).mp mem)
  exact ⟨entry, present, same.le⟩

end Listed

lemma run_reachable (calls : List Call) : (run calls).Reachable := by
  induction calls using List.reverseRecOn with
  | nil => exact .start {} 0 .noEviction
  | append_singleton calls call ih =>
    unfold run
    rw [List.foldl_append]
    cases call with
    | execute line now =>
      show (execute line now (run calls)).2.Reachable
      unfold execute
      split
      · exact ih
      · exact ih
      · exact ih.next .detached (.command now _)
    | tick choices now => exact ih.next .detached (.cycle choices 20 now)

/-- Whatever has been executed and ticked, the page reads back the counters and a list of keys from the
text of the keyspace if the keys and the items shown are UTF-8; otherwise the text is not UTF-8 and so
no JSON. There are no control characters in it, so it reaches the page whole. The list has exactly the
keys that `inspect` reports, each one once, the most recently used first, and the memory that is shown
for them adds up to no more than the memory that is used. -/
theorem state_json_reads (calls : List Call) (now : Bytes → Int) :
    let processor := run calls
    let db := processor.database
    Json.parse (stateJson now processor) =
      (if Readable (listed now db) then some (stateTree now processor) else none) ∧
    (∀ b ∈ stateJson now processor, 32 ≤ b) ∧
    (listed now db).map Prod.fst =
      db.keysByRecency.filter (fun key => (db.inspect key (now key)).isSome) ∧
    ((listed now db).map Prod.fst).Nodup ∧
    (∀ key info, (key, info) ∈ listed now db ↔ db.inspect key (now key) = some info) ∧
    ((listed now db).map (·.2.memory)).sum ≤ db.memoryUsed := by
  intro processor db
  have linked : db.Linked := (run_reachable calls).linked
  have accounted : db.Accounted := (run_reachable calls).accounted
  rw [stateJson_eq]
  have reads := Json.parse_render (stateTree now processor)
  simp only [utf8_stateTree] at reads
  refine ⟨reads, Json.render_ge _, listed_keys now db, ?_,
    fun key info => mem_listed linked, listed_memory linked accounted⟩
  rw [listed_keys]
  exact linked.nodup.sublist List.filter_sublist

end Demo

end FlashKV
