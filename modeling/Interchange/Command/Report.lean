import Interchange.Engine.Strategy
import Interchange.RuleFile

/-!
The reports of the commands.
-/

namespace Interchange

def Attempt.report (a : Attempt) : JsonValue :=
  .object [
    ("id", .optional (fun n => .integer n) a.id),
    ("filename", .text a.filename),
    ("interface_id", .text a.interfaceId),
    ("client_id", .text a.clientId),
    ("status", .text a.status.name),
    ("error_message", .optional .text a.errorMessage),
    ("content", .optional .text a.content)]

def StoredHeader.report {H : Type} (record : H → JsonValue) (h : StoredHeader H) : JsonValue :=
  .object [("id", .integer h.id), ("client_id", .text h.clientId), ("record", record h.record)]

def StoredLine.report {L : Type} (record : L → JsonValue) (l : StoredLine L) : JsonValue :=
  .object [
    ("header_id", .integer l.headerId), ("client_id", .text l.clientId), ("record", record l.record)]

namespace Rule

/-- A rule in the report on its set. -/
def summary (r : Rule) : JsonValue :=
  .object <|
    [("name", .text r.label), ("xml_path", .text r.path), ("field", .text r.field),
      ("data_type", .text r.type.name)] ++
    Schema.member "transformation" .text r.transform ++
    [("required", .bool r.required), ("priority", .integer r.priority), ("active", .bool r.active)]

end Rule

namespace RuleSet

/-- The rules by table, in the order of the tables' names and within a table by priority. -/
def tables (set : RuleSet) : List (String × List Rule) :=
  let keys := (set.rules.map fun r => tableKey r.table).eraseDups
  (keys.mergeSort fun a b => !(b < a)).map fun key =>
    (key, (set.rules.filter fun r => tableKey r.table == key).mergeSort fun a b =>
      a.priority ≤ b.priority)

/-- The report on a rule set. -/
def report (set : RuleSet) : JsonValue :=
  .object [
    ("client", .text set.client),
    ("interface", .text set.interface),
    ("tables", .object (set.tables.map fun (key, rules) => (key, .list (rules.map Rule.summary)))),
    ("path_problems", .list (set.pathProblems.map fun (label, e) =>
      .object [("rule", .text label), ("reason", .text e.message)]))]

end RuleSet

end Interchange
