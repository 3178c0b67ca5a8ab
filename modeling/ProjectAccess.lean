import ProjectAccess.Main
import ProjectAccess.Record.Decode
import ProjectAccess.Proofs.Cache.Interleaving
import ProjectAccess.Proofs.Catalog.Queries
import ProjectAccess.Proofs.Gate.ForeignRoles
import ProjectAccess.Proofs.Gate.Growth
import ProjectAccess.Proofs.Gate.Histories
import ProjectAccess.Proofs.Gate.Ownership
import ProjectAccess.Proofs.Gate.Projectless
import ProjectAccess.Proofs.Gate.Reference
import ProjectAccess.Proofs.Gate.Strangers
import ProjectAccess.Proofs.Policy.Calls
import ProjectAccess.Proofs.Predicate.Normal
import ProjectAccess.Proofs.Service.Histories
import ProjectAccess.Proofs.Service.Transparency
import ProjectAccess.Proofs.Cache.Ageing
import ProjectAccess.Proofs.Service.Exchanges
import ProjectAccess.Proofs.Service.Sweeps
import ProjectAccess.Proofs.Service.Failures
import ProjectAccess.Proofs.Journal.Totals
import ProjectAccess.Proofs.Service.Accounts
import ProjectAccess.Proofs.Id.Spelling
import ProjectAccess.Proofs.Record.Edits
import ProjectAccess.Proofs.Record.RoundTrip
import ProjectAccess.Proofs.Access.Procedure
import ProjectAccess.Proofs.Predicate.Places
import ProjectAccess.Proofs.Service.Forgetful
import ProjectAccess.Proofs.Gate.Display
import ProjectAccess.Proofs.Catalog.Problems
import ProjectAccess.Proofs.Directory.Listing
import ProjectAccess.Proofs.Settings.CatalogPath
import ProjectAccess.Proofs.Settings.Written
import ProjectAccess.Proofs.Id.Reading
import ProjectAccess.Proofs.Predicate.Showing
import ProjectAccess.Proofs.Role.Occurrences
import ProjectAccess.Proofs.Catalog.Written
