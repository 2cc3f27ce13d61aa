import TableScript.Parse
import TableScript.Schema.Write

/-!
Writing a schema and reading it back.
-/

namespace TableScript

structure RoundTrip where
  script : String
  -- Whether reading the script gives the same structure.
  equal : Bool
  -- Whether writing what was read gives the same script.
  stable : Bool

def roundTrip {ν φ : Type} [OfText ν] [OfFlag φ] (schema : Schema ν φ) :
    Except Misuse (RoundTrip × List Journal.Record) := do
  let script ← schema.script
  let (parsed, records) := parse .deferred script
  let equal := Schema.same (parsed.map ofText ofFlag) schema
  return (⟨script, equal, PlainSchema.script parsed == script⟩, records)

end TableScript
