import CatalogSearch.Criteria.Recording
import CatalogSearch.Sql.Script
import CatalogSearch.Main
import CatalogSearch.Proofs.Criteria.Translation
import CatalogSearch.Proofs.Catalog.EagerSearch
import CatalogSearch.Proofs.Criteria.Hints
import CatalogSearch.Proofs.Criteria.Outline
import CatalogSearch.Proofs.Sql.Outline
import CatalogSearch.Proofs.Sql.Names
import CatalogSearch.Proofs.Sql.Planned
import CatalogSearch.Proofs.Sql.Placeholders
import CatalogSearch.Proofs.Sql.Grammar
import CatalogSearch.Proofs.Sql.Structure
import CatalogSearch.Proofs.Sql.Aliases
import CatalogSearch.Proofs.Catalog.Resolution
import CatalogSearch.Proofs.Criteria.Independence
import CatalogSearch.Proofs.Criteria.Fetching
import CatalogSearch.Proofs.Criteria.Handles
import CatalogSearch.Proofs.Criteria.Sessions
import CatalogSearch.Proofs.Criteria.Calls
import CatalogSearch.Proofs.Criteria.Invariant
import CatalogSearch.Proofs.Criteria.Opacity
import CatalogSearch.Proofs.Sql.Fetched
import CatalogSearch.Proofs.Sql.Words
import CatalogSearch.Proofs.Sql.OutputNames
import CatalogSearch.Proofs.Config.Settings
import CatalogSearch.Proofs.Logging.Configuration
import CatalogSearch.Proofs.Catalog.Startup
import CatalogSearch.Proofs.Catalog.Command
import CatalogSearch.Proofs.Database.Migration
import CatalogSearch.Proofs.Sql.TextSearch
import CatalogSearch.Proofs.Criteria.Caches
import CatalogSearch.Proofs.Sql.Atomicity
import CatalogSearch.Proofs.Criteria.Accounting
import CatalogSearch.Proofs.Criteria.Unreadable
import CatalogSearch.Proofs.Criteria.Extraction
import CatalogSearch.Proofs.Sql.Consistency
import CatalogSearch.Proofs.Catalog.Identifiers
import CatalogSearch.Proofs.Config.Environment
import CatalogSearch.Proofs.Database.Timeouts
import CatalogSearch.Proofs.Database.Url
import CatalogSearch.Proofs.Logging.History
