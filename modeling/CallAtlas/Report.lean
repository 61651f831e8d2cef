import CallAtlas.CallTree.Slice
import CallAtlas.Session

/-!
# Reports

Two documents: the analysis report on all that a session has read, and the extraction report on
the call tree of one function.
-/

namespace CallAtlas.Report

/-- A call of a function, with what it means. -/
inductive ResolvedCall where
  | internal (name : String) (definition : Entity)
  | external (name : String) (arguments : Int)
deriving DecidableEq, Repr

/-- The calls of a declaration, with what they mean. -/
def resolvedCalls (r : Repository) (e : Entity) : List ResolvedCall :=
  e.calls.map fun call =>
    match r.findDefinition? call.name e.file with
    | some d => .internal call.name d
    | none => .external call.name call.arguments

/-- Whether the meaning of a call is known. -/
def ResolvedCall.isInternal : ResolvedCall → Bool
  | internal _ _ => true
  | external _ _ => false

/-- A call as the report shows it. -/
def ResolvedCall.toDocument : ResolvedCall → Document
  | internal name d =>
    .table [("name", .text name), ("type", .text "internal"),
      ("definition", .table [("signature", .text d.signature), ("file", .text d.file)])]
  | external name arguments =>
    .table [("name", .text name), ("type", .text "external"), ("arguments", .int arguments)]

/-- The counts of an analysis. -/
structure Summary where
  files : Nat
  functions : Nat
  modifiers : Nat
  events : Nat
  stateVariables : Nat
  coverage : Coverage
  internalCalls : Nat
  externalCalls : Nat

/-- The counts of a session. -/
def summary (s : Session) : Summary :=
  let r := s.repository
  let calls := (r.ofKind [.function]).flatMap (resolvedCalls r)
  { files := r.files.length
    functions := (r.ofKind [.function]).length
    modifiers := (r.ofKind [.modifier]).length
    events := (r.ofKind [.event]).length
    stateVariables := (r.ofKind [.stateVariable]).length
    coverage := s.coverage
    internalCalls := (calls.filter (·.isInternal)).length
    externalCalls := (calls.filter (!·.isInternal)).length }

/-- The counts as the report shows them. -/
def Summary.toDocument (c : Summary) : Document :=
  .table [("totalFiles", .nat c.files), ("totalFunctions", .nat c.functions),
    ("totalModifiers", .nat c.modifiers), ("totalEvents", .nat c.events),
    ("totalStateVariables", .nat c.stateVariables),
    ("totalDependencies", .nat c.coverage.found.length),
    ("resolvedDependencies", .nat c.coverage.resolved.length),
    ("failedDependencies", .nat c.coverage.failed.length),
    ("successRate", .real c.coverage.successRate.rounded),
    ("internalCalls", .nat c.internalCalls), ("externalCalls", .nat c.externalCalls)]

/-- The report on a session, written at `now`. -/
def analysis (now : String) (s : Session) (includeSource : Bool) : Document :=
  let r := s.repository
  let coverage := s.coverage
  let entities (kind : Kind) : Document :=
    .list ((r.ofKind [kind]).map (·.toDocument includeSource))
  .table [
    ("metadata", .table [
      ("timestamp", .text now),
      ("startedAt", .text s.startedAt),
      ("seeds", .texts (s.seeds.map (·.blobUrl))),
      ("repositories", .texts (sortTexts (keepFirst id (s.seeds.map (·.repository))))),
      ("filesAnalyzed", .texts r.files),
      ("unparsedFiles", .texts s.unparsed),
      ("fetchAttempts", .nat s.fetchAttempts)]),
    ("dependencies", .table [
      ("found", .texts coverage.found),
      ("resolved", .table (s.processed.map fun entry => (entry.1, .text entry.2.blobUrl))),
      ("failed", .texts coverage.failed),
      ("external", .texts coverage.external),
      ("unreachable", .texts coverage.unreachable)]),
    ("stateVariables", entities .stateVariable),
    ("modifiers", entities .modifier),
    ("events", entities .event),
    ("functions", .list ((r.ofKind [.function]).map fun e =>
      .table (e.fields includeSource ++
        [("calls", .list ((resolvedCalls r e).map (·.toDocument)))]))),
    ("summary", (summary s).toDocument)]

/-- The call tree of a function with what belongs to it. -/
structure Extraction where
  /-- The function. -/
  entity : Entity
  tree : CallTree
  /-- The declarations the tree touches. -/
  entities : List Entity
  coverage : Coverage
  /-- The bound under which the tree was built. -/
  callDepth : Int

/-- The files an extraction involves, by name. -/
def Extraction.files (x : Extraction) : List String :=
  sortTexts (keepFirst id (x.entities.map (·.file) ++ [x.entity.file]))

/-- The report on an extraction in a session, written at `now`. -/
def extraction (now : String) (s : Session) (x : Extraction) (includeSource : Bool) : Document :=
  .table [
    ("metadata", .table [
      ("timestamp", .text now),
      ("targetFunction", .text x.entity.name),
      ("signature", .text x.entity.signature),
      ("file", .text x.entity.file),
      ("maxCallDepth", .int x.callDepth),
      ("observedDepth", .int x.tree.maxDepth),
      ("filesInvolved", .texts x.files),
      ("dependencies", .table (x.coverage.stats ++
        [("external", .texts x.coverage.external),
          ("unreachable", .texts x.coverage.unreachable)]))]),
    ("callTree", x.tree.toDocument),
    ("implementations", .table (s.bindings.filterMap fun entry =>
      entry.2.map fun b => (entry.1, b.toDocument))),
    ("entities", .list (x.entities.map (·.toDocument includeSource))),
    ("functionsByFile", .table ((CallTree.byFile x.entities).map fun entry =>
      (entry.1, .texts entry.2))),
    ("depthDistribution", .table (x.tree.depthDistribution.map fun entry =>
      (toString entry.1, .nat entry.2)))]

end CallAtlas.Report
