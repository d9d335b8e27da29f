import SansEffort.Performing
import SansEffort.Effects

/-!
# The demo's vocabularies

The effects that the demo's hosts offer its routines, and the record of each on the wire
(`demo/driven/boundary`). A record is its tag, then its fields, and at its end the id of the
request, if it is one.
-/

namespace SansEffort.Boundary

open Reading Dialogue

/-! ### Effects -/

structure CountEffect

/-- The greeting word for a name. -/
structure LookupEffect where
  name : String

/-- What the demo's routines tell and ask, and what answers each request. -/
inductive Request
  | count (request : CountEffect)
  | lookup (request : LookupEffect)
  | readLine (request : ReadLineEffect)
  | sleep (request : SleepEffect)
  | now (request : NowEffect)
  | random (request : RandomEffect)
  | var (request : VarEffect)
  | readFile (request : ReadFileEffect)
  | writeFile (request : WriteFileEffect)

def Request.reply : Request → AnswerType
  | count _ => .itself .u64
  | lookup _ => .itself .str
  | readLine _ => .result Reader.str (Decode.decode (α := ReadLineError))
  | sleep _ => .itself .unit
  | now _ => .unixTime
  | random _ => .itself .bytes
  | var _ => .option Reader.str
  | readFile _ => .result Reader.bytes (Decode.decode (α := FsError))
  | writeFile _ => .result (pure ()) (Decode.decode (α := FsError))

/-- `Count`, `Lookup`, `ReadLine`, `Sleep`, `Now`, `Random`, `Var`, `ReadFile`, `WriteFile` and
`WriteLine`. -/
abbrev everything : Abilities := ⟨WriteLineEffect, Request, Request.reply⟩

/-- The vocabulary of a host that offers everything, with `C` the children it can be given. -/
inductive Full (C : Type)
  | count (request : CountEffect) (reply : ReplyHandle)
  | lookup (request : LookupEffect) (reply : ReplyHandle)
  | readLine (request : ReadLineEffect) (reply : ReplyHandle)
  | sleep (request : SleepEffect) (reply : ReplyHandle)
  | writeLine (message : WriteLineEffect)
  | now (request : NowEffect) (reply : ReplyHandle)
  | random (request : RandomEffect) (reply : ReplyHandle)
  | var (request : VarEffect) (reply : ReplyHandle)
  | readFile (request : ReadFileEffect) (reply : ReplyHandle)
  | writeFile (request : WriteFileEffect) (reply : ReplyHandle)
  | spawn (child : C)
  | spawnPinned (child : C)

/-- The first byte of each effect's record. -/
inductive Tag
  | count
  | lookup
  | readLine
  | sleep
  | writeLine
  | spawned
  | spawnedPinned
  | now
  | random
  | var
  | readFile
  | writeFile
  deriving DecidableEq, Repr

def Tag.byte : Tag → UInt8
  | count => 1
  | lookup => 2
  | readLine => 3
  | sleep => 4
  | writeLine => 5
  | spawned => 6
  | spawnedPinned => 7
  | now => 8
  | random => 9
  | var => 10
  | readFile => 11
  | writeFile => 12

/-- An effect as a host sees it. -/
inductive View
  | count (id : Nat)
  | lookup (name : String) (id : Nat)
  | readLine (id : Nat)
  | sleep (millis : UInt64) (id : Nat)
  | writeLine (text : String)
  | now (id : Nat)
  | random (len : UInt32) (id : Nat)
  | var (name : String) (id : Nat)
  | readFile (path : String) (id : Nat)
  | writeFile (path : String) (bytes : Bytes) (id : Nat)
  | spawned (handle : Nat)
  | spawnedPinned (handle : Nat)
  deriving DecidableEq

section

variable {C : Type}

/-- `split`, once its child has its handle. -/
def Full.split (handle : Nat) : Full C → View × Option Pending
  | count _ reply => (.count reply.id, some ((AnswerType.itself .u64).wire.intoPending reply))
  | lookup request reply =>
    (.lookup request.name reply.id, some ((AnswerType.itself .str).wire.intoPending reply))
  | readLine request reply =>
    (.readLine reply.id, some ((Request.readLine request).reply.wire.intoPending reply))
  | sleep request reply =>
    (.sleep request.millis reply.id, some ((AnswerType.itself .unit).wire.intoPending reply))
  | writeLine message => (.writeLine message.line, none)
  | now request reply => (.now reply.id, some ((Request.now request).reply.wire.intoPending reply))
  | random request reply =>
    (.random request.len reply.id, some ((Request.random request).reply.wire.intoPending reply))
  | var request reply =>
    (.var request.name reply.id, some ((Request.var request).reply.wire.intoPending reply))
  | readFile request reply =>
    (.readFile request.path reply.id, some ((Request.readFile request).reply.wire.intoPending reply))
  | writeFile request reply =>
    (.writeFile request.path request.bytes reply.id,
      some ((Request.writeFile request).reply.wire.intoPending reply))
  | spawn _ => (.spawned handle, none)
  | spawnPinned _ => (.spawnedPinned handle, none)

end

/-! ### Records -/

/-- `Encode for View`. -/
def View.encode : View → Writer → Option Writer
  | count id, w => some ((w.u8 Tag.count.byte).u64 id)
  | lookup name id, w => ((w.u8 Tag.lookup.byte).str name).map (·.u64 id)
  | readLine id, w => some ((w.u8 Tag.readLine.byte).u64 id)
  | sleep millis id, w => some (((w.u8 Tag.sleep.byte).u64 millis.toNat).u64 id)
  | writeLine text, w => (w.u8 Tag.writeLine.byte).str text
  | now id, w => some ((w.u8 Tag.now.byte).u64 id)
  | random len id, w => some (((w.u8 Tag.random.byte).u32 len.toNat).u64 id)
  | var name id, w => ((w.u8 Tag.var.byte).str name).map (·.u64 id)
  | readFile path id, w => ((w.u8 Tag.readFile.byte).str path).map (·.u64 id)
  | writeFile path bytes id, w =>
    ((w.u8 Tag.writeFile.byte).str path).bind fun w => (w.bytes bytes).map (·.u64 id)
  | spawned handle, w => some ((w.u8 Tag.spawned.byte).u64 handle)
  | spawnedPinned handle, w => some ((w.u8 Tag.spawnedPinned.byte).u64 handle)

/-- The request id at the end of a record, and the handle in one of a child. -/
def View.number : View → Nat
  | count id | lookup _ id | readLine id | sleep _ id | now id | random _ id | var _ id
  | readFile _ id | writeFile _ _ id => id
  | writeLine _ => 0
  | spawned handle | spawnedPinned handle => handle

/-- The record. -/
def View.layout : View → Option Bytes
  | count id => some (Tag.count.byte :: toLeBytes 8 id)
  | lookup name id =>
    (payload (utf8 name)).map fun name => Tag.lookup.byte :: (name ++ toLeBytes 8 id)
  | readLine id => some (Tag.readLine.byte :: toLeBytes 8 id)
  | sleep millis id => some (Tag.sleep.byte :: (toLeBytes 8 millis.toNat ++ toLeBytes 8 id))
  | writeLine text => (payload (utf8 text)).map (Tag.writeLine.byte :: ·)
  | now id => some (Tag.now.byte :: toLeBytes 8 id)
  | random len id => some (Tag.random.byte :: (toLeBytes 4 len.toNat ++ toLeBytes 8 id))
  | var name id => (payload (utf8 name)).map fun name => Tag.var.byte :: (name ++ toLeBytes 8 id)
  | readFile path id =>
    (payload (utf8 path)).map fun path => Tag.readFile.byte :: (path ++ toLeBytes 8 id)
  | writeFile path bytes id => (payload (utf8 path)).bind fun path =>
    (payload bytes).map fun bytes => Tag.writeFile.byte :: (path ++ bytes ++ toLeBytes 8 id)
  | spawned handle => some (Tag.spawned.byte :: toLeBytes 8 handle)
  | spawnedPinned handle => some (Tag.spawnedPinned.byte :: toLeBytes 8 handle)

theorem View.appends_encode (view : View) : Appends view.encode view.layout := by
  intro w
  -- a tag first, in each
  have text : ∀ (tag : Tag) s, (w.u8 tag.byte).str s =
      (payload (utf8 s)).map fun front => ⟨w.buffer ++ tag.byte :: front⟩ := by
    intro tag s
    refine (appends_str s (w.u8 tag.byte)).trans ?_
    cases payload (utf8 s) <;> simp [Writer.u8]
  cases view with
  | lookup s _ | var s _ | readFile s _ =>
    simp only [encode, layout, text]
    cases payload (utf8 s) <;> simp [Writer.u64]
  | writeLine s =>
    simp only [encode, layout, text]
    cases payload (utf8 s) <;> simp
  | writeFile path bytes id =>
    simp only [encode, layout, text]
    cases payload (utf8 path) with
    | none => rfl
    | some front =>
      have more := appends_bytes bytes ⟨w.buffer ++ Tag.writeFile.byte :: front⟩
      simp only [Option.map_some, Option.bind_some, more]
      cases payload bytes <;> simp [Writer.u64]
  | _ => simp [encode, layout, Writer.u8, Writer.u32, Writer.u64]

/-! ### What the vocabularies carry -/

/-- How a host sees a request. -/
def Request.view : Request → Nat → View
  | .count _, id => .count id
  | .lookup request, id => .lookup request.name id
  | .readLine _, id => .readLine id
  | .sleep request, id => .sleep request.millis id
  | .now _, id => .now id
  | .random request, id => .random request.len id
  | .var request, id => .var request.name id
  | .readFile request, id => .readFile request.path id
  | .writeFile request, id => .writeFile request.path request.bytes id

/-- `Full` carries everything. -/
def full (C : Type) : Vocabulary everything (Full C) View where
  told := .writeLine
  asked
    | .count request, reply => .count request reply
    | .lookup request, reply => .lookup request reply
    | .readLine request, reply => .readLine request reply
    | .sleep request, reply => .sleep request reply
    | .now request, reply => .now request reply
    | .random request, reply => .random request reply
    | .var request, reply => .var request reply
    | .readFile request, reply => .readFile request reply
    | .writeFile request, reply => .writeFile request reply
  split := Full.split 0
  showTold message := .writeLine message.line
  showAsked := Request.view
  split_told _ := rfl
  split_asked request _ := by cases request <;> rfl

end SansEffort.Boundary
