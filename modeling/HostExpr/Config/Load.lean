import HostExpr.Config
import HostExpr.Config.Json

/-!
Configurations as texts.

A configuration is a JSON object with the keys `resolution_cache` and `narrowing`, or an array with
their values in this order. What is left out keeps its default; an unknown or repeated key is an
error. A policy is its name, or an object with its name as the key of `null`.
-/

namespace HostExpr

inductive ConfigError where
  /-- The file could not be read. -/
  | unreadable
  /-- The text is not a configuration. -/
  | malformed
  deriving DecidableEq

namespace Config

def narrowingOfName? (name : String) : Option Narrowing :=
  Narrowing.all.find? (·.name = name)

def narrowingOfJson? : Json → Option Narrowing
  | .string name => narrowingOfName? name
  | .object [(name, .null)] => narrowingOfName? name
  | _ => none

def booleanOfJson? : Json → Option Bool
  | .boolean b => some b
  | _ => none

def setField (config : Config) (key : String) (value : Json) : Option Config :=
  match key with
  | "resolution_cache" =>
    (booleanOfJson? value).map fun b => { config with resolutionCache := b }
  | "narrowing" => (narrowingOfJson? value).map fun n => { config with narrowing := n }
  | _ => none

def ofJson? : Json → Option Config
  | .object fields =>
    if (fields.map (·.1)).Nodup then
      fields.foldlM (fun config field => config.setField field.1 field.2) {}
    else none
  | .array items =>
    if items.length ≤ 2 then
      (["resolution_cache", "narrowing"].zip items).foldlM
        (fun config field => config.setField field.1 field.2) {}
    else none
  | _ => none

def parse (text : String) : Except ConfigError Config :=
  match (Json.ofText? text).bind ofJson? with
  | some config => .ok config
  | none => .error .malformed

/-- Reads a configuration from the contents of a file, if it has any. -/
def load (contents : Option String) : Except ConfigError Config :=
  match contents with
  | some text => parse text
  | none => .error .unreadable

end Config

end HostExpr
