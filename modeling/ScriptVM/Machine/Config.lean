/-!
# Configuration

Limits and switches that an embedder chooses when it creates a machine.
-/

namespace ScriptVM

/-- Limits and switches of a machine. -/
structure Config where
  /-- Frames on the stack before a call is refused. -/
  maxCallDepth : Nat := 10000
  /-- Nested native calls before a call is refused. -/
  maxNativeDepth : Nat := 256
  /-- Prototype links that a single lookup follows. -/
  maxPrototypeChain : Nat := 10000
  /-- Remember where named properties were found. -/
  inlineCaches : Bool := true
  /-- Verify a chunk before it is executed. -/
  verifyBytecode : Bool := true
  /-- Drain the microtask queue after a chunk was executed. -/
  drainMicrotasksOnExecute : Bool := true
  /-- Report rejected promises that never got a handler. -/
  trackUnhandledRejections : Bool := true
  deriving DecidableEq, Repr

namespace Config

/-- What a setting is set to. -/
inductive Setting
  | limit (value : Nat)
  | switch (on : Bool)
  deriving DecidableEq, Repr

/-- One field of a configuration, with the name that it has in documents. -/
structure Field where
  name : String
  read : Config -> Setting
  /-- Change the field, unless the setting is of the wrong kind or too large. -/
  write? : Config -> Setting -> Option Config

/-- Limits stay below this number. -/
def limitBound : Nat := 1 <<< 64

/-- A field that holds a limit. -/
def Field.ofLimit (name : String) (read : Config -> Nat) (write : Config -> Nat -> Config) :
    Field where
  name
  read config := .limit (read config)
  write? config
    | .limit value => if value < limitBound then some (write config value) else none
    | .switch _ => none

/-- A field that holds a switch. -/
def Field.ofSwitch (name : String) (read : Config -> Bool)
    (write : Config -> Bool -> Config) : Field where
  name
  read config := .switch (read config)
  write? config
    | .limit _ => none
    | .switch on => some (write config on)

/-- All fields in the order of documents. -/
def fields : List Field :=
  [ .ofLimit "max_call_depth" maxCallDepth fun config maxCallDepth =>
      { config with maxCallDepth }
  , .ofLimit "max_native_depth" maxNativeDepth fun config maxNativeDepth =>
      { config with maxNativeDepth }
  , .ofLimit "max_prototype_chain" maxPrototypeChain fun config maxPrototypeChain =>
      { config with maxPrototypeChain }
  , .ofSwitch "inline_caches" inlineCaches fun config inlineCaches =>
      { config with inlineCaches }
  , .ofSwitch "verify_bytecode" verifyBytecode fun config verifyBytecode =>
      { config with verifyBytecode }
  , .ofSwitch "drain_microtasks_on_execute" drainMicrotasksOnExecute
      fun config drainMicrotasksOnExecute => { config with drainMicrotasksOnExecute }
  , .ofSwitch "track_unhandled_rejections" trackUnhandledRejections
      fun config trackUnhandledRejections => { config with trackUnhandledRejections } ]

/-- Change the field of a name, if there is one and the setting suits it. -/
def set? (config : Config) (name : String) (setting : Setting) : Option Config := do
  (<- fields.find? fun field => field.name == name).write? config setting

end Config
end ScriptVM
