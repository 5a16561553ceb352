import FlashKV.Resp.Rendering
import FlashKV.Server.Cache

/-!
# The local shell

Model of `main.cpp`, which runs one processor without a log on the lines of its standard input. A
session is one sequence of commands on a typed map: each line is answered in its place, whatever it
holds, until one of them leaves the shell. It is assumed that the clock is read once for each command
and once for the cycle before it.
-/

namespace FlashKV

open Database

namespace Shell

/-- The lines that `getline` reads, `line` being what it has read of the first one. -/
def readLines (line : Bytes) : Bytes → List Bytes
  | [] => if line = [] then [] else [line]
  | character :: input =>
    if character = 10 then line :: readLines [] input else readLines (line ++ [character]) input

/-- What decides about a command that is not in the input: the choices of the cycle before it, and
what the clock shows to both. -/
structure Turn where
  choices : CycleChoices
  ticked : Int
  now : Int

structure Session where
  processor : Processor
  executed : Nat := 0
  output : Bytes

def banner : Bytes :=
  ascii "FlashKV 0.2.0 local shell\n" ++
    ascii "Type Redis commands (SET, GET, LPUSH, HSET, ...). EXIT or QUIT to leave.\n"

def prompt : Bytes := ascii "flashkv> "

def invalid : Bytes := ascii "Invalid argument(s): unbalanced quotes\n"

def Session.print (text : Bytes) (session : Session) : Session :=
  { session with output := session.output ++ text }

/-- `EXIT` or `QUIT`. -/
def leaves (arguments : List Bytes) : Bool :=
  let command := uppercase (arguments.headD [])
  command = ascii "EXIT" ∨ command = ascii "QUIT"

/-- A command is executed and its reply is shown. -/
def execute (turn : Turn) (arguments : List Bytes) (session : Session) : Checked Session :=
  -- expired keys are also reclaimed in the background
  let database := (activeExpireCycle turn.choices 20 turn.ticked session.processor.database).2
  let (reply, _, processor) :=
    { session.processor with database := database }.execute .detached turn.now arguments
  (formatReply reply.payload (uppercase (arguments.headD []) = ascii "INFO")).map fun text =>
    { processor := processor
      executed := session.executed + 1
      output := session.output ++ text ++ [10] }

/-- The loop of `main`, over the lines that are left. -/
def loop (turns : Nat → Turn) : List Bytes → Session → Checked Session
  | [], session => pure (session.print prompt)
  | line :: lines, session =>
    let session := session.print prompt
    (tokenizeCommandLine line).elim (loop turns lines (session.print invalid)) fun arguments =>
      if arguments = [] then loop turns lines session
      else if leaves arguments then pure session
      else (execute (turns session.executed) arguments session).bind (loop turns lines)

/-- Source `main`, with the time at which the processor is made. -/
def run (turns : Nat → Turn) (started : Int) (input : Bytes) : Checked Session :=
  let session : Session :=
    { processor := { stats := { startTimeMs := started } }, output := banner }
  (loop turns (readLines [] input) session).map (·.print (ascii "FlashKV stopped\n"))

/-! ### What a session is -/

/-- The line leaves the shell. -/
def isLast (line : Bytes) : Bool :=
  (tokenizeCommandLine line).any fun arguments => !arguments.isEmpty && leaves arguments

/-- The lines before the one that leaves. -/
def served (input : Bytes) : List Bytes :=
  (readLines [] input).takeWhile (!isLast ·)

/-- The commands of some lines. -/
def commands (lines : List Bytes) : List (List Bytes) :=
  (lines.filterMap tokenizeCommandLine).filter (· ≠ [])

/-- The commands as actions on a database, the first one at turn `i`. -/
def actions (turns : Nat → Turn) : Nat → List (List Bytes) → List Action
  | _, [] => []
  | i, arguments :: commands =>
    .cycle (turns i).choices 20 (turns i).ticked ::
      .request 0 .detached (turns i).now arguments :: actions turns (i + 1) commands

section Transcript

variable {turns : Nat → Turn} {line : Bytes} {lines : List Bytes} {arguments : List Bytes}
  {session : Session} {s : Sequential}

/-- The sequence in which the next command has been executed. -/
def next (turn : Turn) (arguments : List Bytes) (s : Sequential) : Sequential :=
  (s.step (.cycle turn.choices 20 turn.ticked)).step (.request 0 .detached turn.now arguments)

end Transcript

section Caches

variable {limited : Prop} {turns : Nat → Turn} {start : TypedMap .native} {s : Sequential}

end Caches

end Shell

end FlashKV
