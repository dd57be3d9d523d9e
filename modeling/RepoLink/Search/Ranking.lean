import Mathlib.Data.List.Sort
import RepoLink.Library.Dict
import RepoLink.Search.Text

/-!
The lanes of a search and their fusion: `literal_lane`, `lane` and the ordering half of
`TaskSearchService::assemble`. Scores are floating-point numbers, which stay a parameter.
-/

namespace RepoLink

open KeyedTable

structure CommentTextRow where
  remoteCommentId : Option String
  body : String
deriving DecidableEq, Repr

structure TaskTextRow where
  taskId : TaskId
  workspaceId : WorkspaceId
  repoId : Option RepoId
  isOpen : Bool
  title : String
  body : String
  comments : List CommentTextRow
deriving DecidableEq, Repr

inductive MatchedSourceKind where
  | core
  | comment
deriving DecidableEq, Repr

structure TextColumn where
  text : String
  kind : MatchedSourceKind
  remoteCommentId : Option String
deriving DecidableEq, Repr

def TaskTextRow.columns (row : TaskTextRow) : List TextColumn :=
  ⟨row.title, .core, none⟩ :: ⟨row.body, .core, none⟩ ::
    row.comments.map fun comment => ⟨comment.body, .comment, comment.remoteCommentId⟩

structure TaskLiteral where
  contributed : Bool
  fullPresent : Bool
  allTokensPresent : Bool
  occurrence : Nat
  kind : MatchedSourceKind
  remoteCommentId : Option String
  excerpt : String
deriving DecidableEq, Repr

def excerptLimit : Nat := 200

section Literal

variable (unicode : Unicode)

def TextColumn.matched (query : String) (column : TextColumn) : List Span :=
  if column.text.isEmpty then [] else findLiteralSpans unicode column.text query

def TaskTextRow.mentions (needle : String) (row : TaskTextRow) : Bool :=
  row.columns.any fun column => !(column.matched unicode needle).isEmpty

def literalOf (query : String) (mode : QueryMode) (row : TaskTextRow) : TaskLiteral :=
  let hits := row.columns.flatMap fun column =>
    (column.matched unicode query).map fun span => (column, span)
  let tokens := identifierTokens unicode query
  let fullPresent := !hits.isEmpty
  let allTokensPresent :=
    mode = .identifier && !tokens.isEmpty && tokens.all fun token => row.mentions unicode token
  { contributed := match mode with
      | .exact => fullPresent
      | .identifier => fullPresent || allTokensPresent
      | .natural => 0 < hits.length
    fullPresent
    allTokensPresent
    occurrence := hits.length
    kind := hits.head?.elim .core fun hit => hit.1.kind
    remoteCommentId := hits.head?.bind fun hit => hit.1.remoteCommentId
    excerpt := hits.head?.elim row.title fun hit => excerpt hit.1.text hit.2 excerptLimit }

def literalLane (rows : List TaskTextRow) (query : String) (mode : QueryMode) :
    Dict TaskId TaskLiteral :=
  Dict.collect (rows.map fun row => (row.taskId, literalOf unicode query mode row))

end Literal

abbrev Ranking := Dict TaskId Nat

def moreOften (left right : TaskId × TaskLiteral) : Bool :=
  right.2.occurrence < left.2.occurrence ||
    (left.2.occurrence = right.2.occurrence && left.1.value ≤ right.1.value)

def literalOccurrenceRanking (literal : Dict TaskId TaskLiteral) : Ranking :=
  let tasks := (literal.rows.filter fun entry => 0 < entry.2.occurrence).insertionSort
    (moreOften · ·)
  Dict.collect (tasks.mapIdx fun index entry => (entry.1, index + 1))

/-- `f64` as the fusion uses it; `reciprocal rank` is `1.0 / (RRF_K + rank)`. -/
structure Scores (σ : Type) where
  zero : σ
  add : σ → σ → σ
  reciprocal : Nat → σ
  partialCmp : σ → σ → Option Ordering

structure LexicalRank where
  taskId : TaskId
  rank : Nat
  kind : MatchedSourceKind
  remoteCommentId : Option String
  excerpt : String
deriving DecidableEq, Repr

structure SemanticRank (σ : Type) where
  taskId : TaskId
  score : σ

section Fusion

variable {σ : Type} (scores : Scores σ)

def fuseRank (fused : Dict TaskId σ) (entry : TaskId × Nat) : Dict TaskId σ :=
  fused.insert entry.1
    (scores.add ((fused.get? entry.1).getD scores.zero) (scores.reciprocal entry.2))

def rrfFuse (rankings : List Ranking) : Dict TaskId σ :=
  rankings.foldl (fun fused ranking => ranking.rows.foldl (fuseRank scores) fused) Dict.empty

def ordersBefore (left right : TaskId × σ) : Bool :=
  match (scores.partialCmp right.2 left.2).getD .eq with
  | .lt => true
  | .gt => false
  | .eq => left.1.value ≤ right.1.value

def orderFused (fused : Dict TaskId σ) : List TaskId :=
  (fused.rows.insertionSort (ordersBefore scores · ·)).map Prod.fst

def lexicalRanking (lexical : List LexicalRank) : Ranking :=
  Dict.collect (lexical.map fun entry => (entry.taskId, entry.rank))

def semanticRanking (semantic : List (SemanticRank σ)) : Ranking :=
  Dict.collect (semantic.mapIdx fun index entry => (entry.taskId, index + 1))

def lanesOf (literal : Dict TaskId TaskLiteral) (lexical : List LexicalRank)
    (semantic : List (SemanticRank σ)) : List Ranking :=
  [lexicalRanking lexical, literalOccurrenceRanking literal, semanticRanking semantic].filter
    fun ranking => !ranking.rows.isEmpty

def sortsAhead (mode : QueryMode) (literal : Dict TaskId TaskLiteral) (task : TaskId) : Bool :=
  (literal.get? task).any fun entry => match mode with
    | .exact => entry.fullPresent
    | .identifier => entry.fullPresent || entry.allTokensPresent
    | .natural => false

def orderResults (mode : QueryMode) (literal : Dict TaskId TaskLiteral)
    (lexical : List LexicalRank) (semantic : List (SemanticRank σ)) : List TaskId :=
  let ordered := orderFused scores (rrfFuse scores (lanesOf literal lexical semantic))
  if mode = .exact ∨ mode = .identifier then
    ordered.filter (sortsAhead mode literal) ++
      ordered.filter fun task => !sortsAhead mode literal task
  else ordered

end Fusion

end RepoLink
