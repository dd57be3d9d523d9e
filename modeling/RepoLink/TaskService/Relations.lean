import RepoLink.TaskService.Service

/-!
The relation verbs of `TaskService`: both sides of an edge and the mutation it owes are saved in
one transaction.
-/

namespace RepoLink

namespace TaskService

/-- The acyclic families: `(forward, inverse, downstream, upstream)`. -/
def cycleAxis (kind : RelationKind) (subject other : TaskId) :
    Option (RelationKind × RelationKind × TaskId × TaskId) :=
  match kind with
  | .blockedBy => some (.blockedBy, .blocks, subject, other)
  | .blocks => some (.blockedBy, .blocks, other, subject)
  | .childOf => some (.childOf, .parentOf, subject, other)
  | .parentOf => some (.childOf, .parentOf, other, subject)
  | .relatedTo | .duplicates => none

/-- `(node, upstream)` for every stored edge of the family, read from either side. -/
def upstreamEdges (forward inverse : RelationKind) (tasks : List Task) : List (TaskId × TaskId) :=
  tasks.flatMap fun task => task.relations.filterMap fun relation =>
    if relation.kind = forward then some (task.id, relation.other)
    else if relation.kind = inverse then some (relation.other, task.id)
    else none

/-- The depth-first walk upstream. Every edge is pushed at most once, so `fuel` covers it. -/
def reaches (edges : List (TaskId × TaskId)) (target : TaskId) :
    Nat → List TaskId → List TaskId → Bool
  | 0, _, _ => false
  | _ + 1, [], _ => false
  | fuel + 1, node :: stack, visited =>
    if node ∈ visited then reaches edges target fuel stack visited
    else
      let parents := (edges.filter fun edge => edge.1 = node).map Prod.snd
      if target ∈ parents then true
      else reaches edges target fuel (parents.reverse ++ stack) (node :: visited)

def wouldCreateCycle (forward inverse : RelationKind) (downstream upstream : TaskId) :
    Action Bool := do
  let tasks ← query (.listTasks {})
  let edges := upstreamEdges forward inverse tasks
  return reaches edges downstream (edges.length + 2) [upstream] []

def closesCycle (kind : RelationKind) (subject other : TaskId) : Action Bool :=
  match cycleAxis kind subject other with
  | none => return false
  | some (forward, inverse, downstream, upstream) =>
    wouldCreateCycle forward inverse downstream upstream

def relationRemoteCoords (task : Task) : Action (Option IssueCoords) :=
  match task.remote with
  | none => return none
  | some remote => do
    let canonical ← filingCanonicalFor task
    return canonical.map fun canonical => (canonical, remote.remoteId)

def planRelationEntries (kind : RelationKind) (add : Bool) (task other : Task) :
    Action (List OutboxEntry) := do
  let thisCoords ← relationRemoteCoords task
  let otherCoords ← relationRemoteCoords other
  match thisCoords, otherCoords with
  | some this, some related => intoEntries task.id (relationMutation kind add this related).toList
  | _, _ => return []

def planRelationWhen (owed : Bool) (kind : RelationKind) (add : Bool) (task other : Task) :
    Action (List OutboxEntry) :=
  if owed then planRelationEntries kind add task other else return []

def addRelation (taskId : TaskId) (kind : RelationKind) (otherId : TaskId) : Action Task := do
  let task ← resolveTask taskId
  let other ← resolveTask otherId
  if other.id = task.id then .fail .selfRelation
  else
    let cyclic ← closesCycle kind task.id other.id
    if cyclic then .fail (.relationCycle kind taskId otherId)
    else
      let now ← clock
      let related := task.addRelation now kind other.id
      let reciprocal := other.addRelation now kind.inverse task.id
      let newlyAdded := !task.relations.any fun relation =>
        relation.kind = kind ∧ relation.other = other.id
      let entries ← planRelationWhen newlyAdded kind true related reciprocal
      query (.saveAll
        [{ basis := some task, task := related, source := .localEdit },
          { basis := some other, task := reciprocal, source := .localEdit }] entries)
      return related

def removeRelation (taskId : TaskId) (kind : RelationKind) (otherId : TaskId) : Action Task := do
  let task ← resolveTask taskId
  let other ← resolveTask otherId
  if other.id = task.id then .fail .selfRelation
  else
    let now ← clock
    let (taskChanged, stripped) := task.removeRelation now kind other.id
    let (otherChanged, reciprocal) := other.removeRelation now kind.inverse task.id
    let entries ← planRelationWhen taskChanged kind false stripped reciprocal
    let batch : List TaskWrite :=
      (if taskChanged then [{ basis := some task, task := stripped, source := .localEdit }]
        else []) ++
      (if otherChanged then [{ basis := some other, task := reciprocal, source := .localEdit }]
        else [])
    if batch.isEmpty then return stripped
    else
      query (.saveAll batch entries)
      return stripped

def stripReciprocals (now : Timestamp) (taskId : TaskId) (removed : List TaskRelation)
    (other : Task) : Bool × Task :=
  (removed.filter fun relation => relation.other = other.id).foldl
    (fun (changed, task) relation =>
      let (dropped, stripped) := task.removeRelation now relation.kind.inverse taskId
      (changed || dropped, stripped))
    (false, other)

def loadFarEnds (now : Timestamp) (taskId : TaskId) (removed : List TaskRelation) :
    List TaskId → Action (List (TaskId × Option IssueCoords) × List TaskWrite)
  | [] => return ([], [])
  | otherId :: rest => do
    let other ← query (.getTask otherId)
    let (changed, stripped) := stripReciprocals now taskId removed other
    let coords ← cachedRelationCoords stripped
    let (coordsRest, writesRest) ← loadFarEnds now taskId removed rest
    let writes : List TaskWrite :=
      if changed then [{ basis := some other, task := stripped, source := .localEdit }] else []
    return ((other.id, coords) :: coordsRest, writes ++ writesRest)

def clearRelations (taskId : TaskId) : Action Task := do
  let task ← resolveTask taskId
  let now ← clock
  let (removed, cleared) := task.clearRelations now
  if removed.isEmpty then return cleared
  else
    let others := ((removed.map (·.other)).filter fun other => other ≠ task.id).dedup
    let (coordsByOther, writes) ← loadFarEnds now task.id removed others
    let thisCoords ← cachedRelationCoords cleared
    let mutations := removed.filterMap fun relation => do
      let this ← thisCoords
      let related ← (coordsByOther.lookup relation.other).join
      if relation.other = task.id then none
      else relationMutation relation.kind false this related
    let entries ← intoEntries task.id mutations
    query (.saveAll ({ basis := some task, task := cleared, source := .localEdit } :: writes)
      entries)
    return cleared

end TaskService

end RepoLink
