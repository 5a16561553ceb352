import FlashKV.Command.Execution
import FlashKV.Reference.Engine

/-!
# Data commands without a memory limit

Without a limit a data command is its handler, run on the database. What a handler's calls do is
said by the slot operations that they perform on the live view.
-/

namespace FlashKV

open StateAction Database

/-- Is the payload an error reply? -/
def isErrorReply (payload : Bytes) : Bool :=
  payload.head? = some 45

lemma isErrorReply_integer (n : Int) : isErrorReply (respInteger n) = false := rfl

lemma isErrorReply_nullable (value : Option Bytes) : isErrorReply (nullableBulk value) = false := by
  cases value <;> rfl

lemma argument_some {σ : Type} {arguments : List Bytes} {index : Nat} {value : Bytes}
    (h : arguments[index]? = some value) :
    (Handler.argument arguments index : Handling σ Bytes) = pure value := by
  unfold Handler.argument
  rw [h]

lemma argument_bind {σ α : Type} {arguments : List Bytes} {index : Nat} {value : Bytes}
    (h : arguments[index]? = some value) (rest : Bytes → Handling σ α) :
    (Handler.argument arguments index >>= rest) = rest value := by
  rw [argument_some h]
  rfl

lemma propagate_apply {σ : Type} {store : σ} {attached : Bool} {records : List (List Bytes)}
    (record : List Bytes) :
    Handler.propagate record ⟨store, attached, records⟩ =
      (.ok (), ⟨store, attached, if attached then records ++ [record] else records⟩) := by
  rw [Handler.propagate, modify_apply]
  cases attached <;> rfl

/-- A record does not touch the store. -/
lemma propagate_store {σ : Type} (record : List Bytes) (session : Session σ) :
    ∃ records, Handler.propagate record session = (.ok (), { session with records := records }) :=
  ⟨_, propagate_apply record⟩

section Calls

variable {α : Type} {key : Bytes} {now : Int} {act : DbAction α} {op : SlotOp α}

/-- A call that returns. -/
lemma call_ok (performs : Performs key now act op) (session : Session Database) {a : α}
    (returns : (op (session.store.view now key)).1 = .ok a) :
    ∃ store, Handler.call act session = (.ok a, { session with store := store }) ∧
      store.view now =
        Function.update (session.store.view now) key (op (session.store.view now key)).2 := by
  obtain ⟨result, view⟩ := performs session.store
  refine ⟨(act session.store).2, ?_, view⟩
  rw [returns] at result
  unfold Handler.call
  rcases e : act session.store with ⟨_ | _, store⟩
  · rw [e] at result
    cases result
  · rw [e] at result
    cases result
    rfl

/-- A call that throws. -/
lemma call_throws (performs : Performs key now act op) (session : Session Database) {error : DbError}
    (throws : (op (session.store.view now key)).1 = .error error) :
    ∃ store, Handler.call act session = (.error (.thrown error), { session with store := store }) ∧
      store.view now =
        Function.update (session.store.view now) key (op (session.store.view now key)).2 := by
  obtain ⟨result, view⟩ := performs session.store
  refine ⟨(act session.store).2, ?_, view⟩
  rw [throws] at result
  unfold Handler.call
  rcases e : act session.store with ⟨_ | _, store⟩
  · rw [e] at result
    cases result
    rfl
  · rw [e] at result
    cases result

end Calls

/-- A data command without a memory limit: the whole reply, and the database. -/
lemma Processor.execute_unlimited {aof : AofStatus} {arguments : List Bytes} {processor : Processor}
    {spec : CommandSpec} {handler : DataHandler} (healthy : aof ≠ .failed) (now : Int)
    (found : resolve arguments = .dispatch spec) (data : spec.handler = .data handler)
    (unlimited : processor.database.memoryLimit = 0) :
    let run := handler.run arguments now ⟨processor.database, aof.attached, []⟩
    (processor.execute aof now arguments).1 = ⟨payloadOf run.1, false⟩ ∧
    (processor.execute aof now arguments).2.2.database = run.2.store ∧
    (processor.execute aof now arguments).2.2.database.memoryLimit = 0 := by
  intro run
  have nonempty : arguments ≠ [] := by
    rintro rfl
    cases found
  have open_ : (processor.execute aof now arguments).1.closeConnection = false := by
    unfold Processor.execute
    rw [if_neg nonempty, found]
  have limit := (handler.run_mutates (K := fun _ => True) arguments now (fun _ _ => trivial)
    ⟨processor.database, aof.attached, []⟩).memoryLimit id
  obtain ⟨ran, same⟩ := Processor.unlimited found data unlimited
  have steps := processor.execute_cases healthy now arguments
  rw [ran, same] at steps
  obtain ⟨none_, _⟩ | ⟨handler', some_, payload, _, database⟩ := steps
  · cases none_
  · cases some_
    refine ⟨?_, database, ?_⟩
    · rw [← payload, ← open_]
    · rw [database]
      exact limit.trans unlimited

/-- A command that reads one key without a memory limit. -/
lemma Processor.execute_read {α : Type} {aof : AofStatus} {now : Int} {name key : Bytes}
    {processor : Processor} {spec : CommandSpec} {handler : DataHandler} {act : DbAction α}
    {op : SlotOp α} {render : α → Bytes} {a : α} (healthy : aof ≠ .failed)
    (found : resolve [name, key] = .dispatch spec) (data : spec.handler = .data handler)
    (unlimited : processor.database.memoryLimit = 0) (performs : Performs key now act op)
    (calls : handler.run [name, key] now = Handler.call act >>= fun a => pure (render a))
    (returns : (op (processor.database.view now key)).1 = .ok a) :
    (processor.execute aof now [name, key]).1.payload = render a := by
  obtain ⟨reply, _⟩ := execute_unlimited healthy now found data unlimited
  obtain ⟨store, ran, _⟩ := call_ok performs ⟨processor.database, aof.attached, []⟩ returns
  rw [reply, calls, bind_of_ok ran]
  rfl

end FlashKV
