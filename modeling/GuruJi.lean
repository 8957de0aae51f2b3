import GuruJi.Actions.Email
import GuruJi.Actions.Recipients
import GuruJi.Agents.Order
import GuruJi.Agents.Resume
import GuruJi.Auth.Authorization
import GuruJi.Auth.Claims
import GuruJi.Auth.Decisions
import GuruJi.Connectors.Agreement
import GuruJi.Control.Limits
import GuruJi.Control.Sharing
import GuruJi.Conversation.Events
import GuruJi.Conversation.Streaming
import GuruJi.Crawl.Slots
import GuruJi.Crawl.Vetting
import GuruJi.Documents.Answers
import GuruJi.Documents.Traces
import GuruJi.Documents.Chunking
import GuruJi.Gateway.Arguments
import GuruJi.Gateway.Redaction
import GuruJi.Gateway.SingleUse
import GuruJi.Ingestion.Blocks
import GuruJi.Ingestion.Database
import GuruJi.Ingestion.Decisions
import GuruJi.Ingestion.Decoding
import GuruJi.Ingestion.Grids
import GuruJi.Ingestion.MarkKeys
import GuruJi.Ingestion.MarkRows
import GuruJi.Ingestion.Sheets
import GuruJi.Ingestion.Skips
import GuruJi.Ingestion.Waiting
import GuruJi.Ingestion.WideMarks
import GuruJi.Ingestion.PdfPages
import GuruJi.Ingestion.WordTables
import GuruJi.Ingestion.Workbook
import GuruJi.Lib.Chains
import GuruJi.Lib.Numerals
import GuruJi.Lib.Repeats
import GuruJi.Lib.Scan
import GuruJi.Map.Assets
import GuruJi.Map.Authority
import GuruJi.Map.Charges
import GuruJi.Map.Intervals
import GuruJi.Map.Corroboration
import GuruJi.Map.Settled
import GuruJi.Map.Tokens
import GuruJi.Map.Leases
import GuruJi.Map.Links
import GuruJi.Map.News
import GuruJi.Map.Official
import GuruJi.Map.Ownership
import GuruJi.Map.Queue
import GuruJi.Map.Rewording
import GuruJi.Map.Rejections
import GuruJi.Map.Seed
import GuruJi.Map.Structure
import GuruJi.Map.Tick
import GuruJi.Monitoring.Alerts
import GuruJi.Monitoring.Evidence
import GuruJi.Monitoring.Rotation
import GuruJi.Normalization.Mapping
import GuruJi.Orchestration.Figures
import GuruJi.Persistence.Agreement
import GuruJi.Persistence.Drops
import GuruJi.Records.FixedPoint
import GuruJi.Records.Honest
import GuruJi.Records.Keys
import GuruJi.Store.Isolation
import GuruJi.Store.Filters
import GuruJi.Voice.SessionManager
import GuruJi.Voice.Speech
import GuruJi.Voice.Streamer
import GuruJi.Voice.Turns
import GuruJi.Workers.Lifecycle
import GuruJi.Workers.Liveness
import GuruJi.Ingestion.Truncation
import GuruJi.Lib.Percent
import GuruJi.Crawl.Urls
import GuruJi.Crawl.Robots
import GuruJi.Map.Claimable
import GuruJi.Normalization.Suspicion
import GuruJi.Profiles.Saved
import GuruJi.Storage.Objects
import GuruJi.OpenTask.Agent
