import CompositionFunction.Duration
import CompositionFunction.Toml.Document

/-!
# Configuration

The configuration says for how long a response may be kept and whether documents are indented. It
is a document of TOML with a table of defaults; what it does not say has a built-in default, and
what it says beyond that does not matter.

`Config` is `AppConfig` of the program with its one section `DefaultsConfig`; `builtIn` has the
values of `default_ttl_secs` and `default_true`.
-/

set_option autoImplicit false

namespace CompositionFunction

/-- What can be configured. -/
structure Config where
  /-- For how many seconds a response may be kept. -/
  ttlSeconds : Nat
  /-- Whether documents are indented. -/
  pretty : Bool
  ttlSeconds_lt : ttlSeconds < UInt64.size
deriving DecidableEq, Repr

namespace Config

open Toml

/-- The built-in configuration. -/
def builtIn : Config := ⟨60, true, by decide⟩

/-- For how long a response may be kept. -/
def ttl (c : Config) : Duration := .ofSeconds c.ttlSeconds c.ttlSeconds_lt

/-! ## Reading -/

/-- The configuration with a number of seconds, which cannot be negative; integers of TOML have 63
bits and a sign. -/
def withTtl (c : Config) : Option Item → Option Config
  | none => some c
  | some (.integer i) =>
    if h : 0 ≤ i ∧ i < 2 ^ 63 then some { c with
      ttlSeconds := i.toNat
      ttlSeconds_lt := by unfold UInt64.size; omega } else none
  | some _ => none

/-- The configuration with a statement about indentation. -/
def withPretty (c : Config) : Option Item → Option Config
  | none => some c
  | some (.bool b) => some { c with pretty := b }
  | some _ => none

/-- The configuration of the two settings, each of which may be missing. -/
def ofSettings? (ttl pretty : Option Item) : Option Config := do
  let c ← builtIn.withTtl ttl
  c.withPretty pretty

/-- The configuration of the defaults, which may be missing. They are a table, or an array of the
settings in their order; a date has no settings. -/
def ofDefaults? : Option Item → Option Config
  | none => some builtIn
  | some (.table _ entries) => ofSettings? (entries.lookup "ttl_secs") (entries.lookup "pretty")
  | some (.array items) => ofSettings? items[0]? items[1]?
  | some .date => some builtIn
  | some _ => none

/-- The configuration that a document states. -/
def parse? (s : String) : Option Config := do
  let table ← Toml.parse? s
  ofDefaults? (table.lookup "defaults")

/-! ## Writing -/

/-- The document of a configuration, or why it has none: not every number of seconds is an integer
of TOML. -/
def render (c : Config) : Except String String :=
  if c.ttlSeconds < 2 ^ 63 then
    .ok ("[defaults]\nttl_secs = " ++ String.ofList (Text.digits c.ttlSeconds) ++
      "\npretty = " ++ (if c.pretty then "true" else "false") ++ "\n")
  else .error "out-of-range value for u64 type"

end Config

end CompositionFunction
