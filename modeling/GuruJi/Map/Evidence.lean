import GuruJi.Lib.Latest
import GuruJi.Lib.Text
import Mathlib.Data.Prod.Lex
import Mathlib.Data.String.Basic

/-!
# The evidence log of the map

Rows of `intel_evidence` as the grader reads them. Times are kept as text; `parse` is
`datetime.fromisoformat` in microseconds, with a time without an offset read as UTC, and `none`
where it raises. The log of one asset is an `EvidenceLog`.
-/

namespace GuruJi.Map

open GuruJi.Lib

/-- The kinds of evidence that the grading rule names, and the others. -/
inductive Kind where
  | officialLink | hubLink | subdomain | backlink | configuredDomain | directoryRecord
  | communityRecord | searchSnippet | apiIdentity | importedClaim | ownerClaim | reviewerConfirm
  | reviewerReject | lookalike | impersonation | identityChanged | sourceRefuted | anchorLost
  | liveness | integrity | other (name : String)
  deriving DecidableEq

def Kind.text : Kind → String
  | .officialLink => "official_link"
  | .hubLink => "hub_link"
  | .subdomain => "subdomain"
  | .backlink => "backlink"
  | .configuredDomain => "configured_domain"
  | .directoryRecord => "directory_record"
  | .communityRecord => "community_record"
  | .searchSnippet => "search_snippet"
  | .apiIdentity => "api_identity"
  | .importedClaim => "imported_claim"
  | .ownerClaim => "owner_claim"
  | .reviewerConfirm => "reviewer_confirm"
  | .reviewerReject => "reviewer_reject"
  | .lookalike => "lookalike"
  | .impersonation => "impersonation"
  | .identityChanged => "identity_changed"
  | .sourceRefuted => "source_refuted"
  | .anchorLost => "anchor_lost"
  | .liveness => "liveness"
  | .integrity => "integrity"
  | .other name => name

/-- `_OBSERVATIONS`. -/
def Kind.isObservation (k : Kind) : Bool := k = .liveness || k = .integrity

inductive Polarity where
  | supports | refutes
  deriving DecidableEq

inductive Via where
  | live | index | archive | owner | reviewer | import
  deriving DecidableEq

structure Evidence where
  evidenceId : String
  assetId : String
  kind : Kind
  polarity : Polarity
  sourceUrl : String
  sourceAssetId : Option String
  detail : String
  channel : String
  observedVia : Via
  observedAt : String
  deriving DecidableEq

/-- The evidence of one asset; `evidence_id` is the primary key. -/
structure EvidenceLog (assetId : String) where
  rows : List Evidence
  unique : (rows.map (·.evidenceId)).Nodup
  ofAsset : ∀ item ∈ rows, item.assetId = assetId

namespace Evidence

def supports (item : Evidence) : Bool := item.polarity = .supports

def refutes (item : Evidence) : Bool := item.polarity = .refutes

def isObservation (item : Evidence) : Bool := item.kind.isObservation

def succeeded (item : Evidence) : Bool := item.kind = .liveness && item.supports

/-- A check whose text says that the name did not resolve. -/
def unresolved (item : Evidence) : Bool :=
  item.kind = .liveness &&
    (startsWith "unresolved" item.detail || item.detail = "not_found:nxdomain")

/-- `_NOT_FOUND`: the texts of a page that is gone. -/
def notFound (item : Evidence) : Bool :=
  ["not_found", "gone", "unresolved", "unreachable"].contains (beforeColon item.detail)

/-- An integrity verdict that says the domain is in other hands. -/
def verdict (text : String) (item : Evidence) : Bool :=
  item.kind = .integrity && startsWith text item.detail

/-- `str(source_asset_id)`. -/
def source (item : Evidence) : String := item.sourceAssetId.getD "None"

/-- Whether a source is named: `None` and the empty string are not. -/
def hasSource (item : Evidence) : Bool := item.sourceAssetId.any (· ≠ "")

end Evidence

/-- `datetime.min` in UTC, in microseconds. -/
def minTime : Int := -62135596800000000

variable (parse : String → Option Int)

/-- `_when`. -/
def when (item : Evidence) : Int := (parse item.observedAt).getD minTime

def order (item : Evidence) : Int ×ₗ String := toLex (when parse item, item.evidenceId)

def ordered (rows : List Evidence) : List Evidence := sortBy (order parse) rows

variable {parse}

theorem order_lt_iff {a b : Evidence} : order parse a < order parse b ↔
    when parse a < when parse b ∨ when parse a = when parse b ∧ a.evidenceId < b.evidenceId :=
  Prod.Lex.toLex_lt_toLex

theorem when_mono {a b : Evidence} (h : order parse a ≤ order parse b) :
    when parse a ≤ when parse b := by
  rcases Prod.Lex.toLex_le_toLex.mp h with h | ⟨h, -⟩
  · exact h.le
  · exact h.le

theorem order_lt_of_when {a b : Evidence} (h : when parse a < when parse b) :
    order parse a < order parse b := order_lt_iff.mpr (.inl h)

theorem chronological_ordered {rows : List Evidence} (h : (rows.map (·.evidenceId)).Nodup) :
    Chronological (order parse) (ordered parse rows) := by
  refine chronological_sortBy (List.Nodup.of_map (fun k => (ofLex k).2) ?_)
  rwa [List.map_map]

theorem mem_ordered {rows : List Evidence} {item : Evidence} :
    item ∈ ordered parse rows ↔ item ∈ rows := mem_sortBy

theorem ordered_filter (rows : List Evidence) (p : Evidence → Bool) :
    ordered parse (rows.filter p) = (ordered parse rows).filter p := sortBy_filter p rows

end GuruJi.Map
