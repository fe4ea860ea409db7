import IdentityHub.Lib.StepSystem
import IdentityHub.Lib.KeyedTable
import IdentityHub.Lib.SortedSet
import IdentityHub.Lib.Bitstring
import IdentityHub.Lib.Json
import IdentityHub.Lib.Text
import IdentityHub.External
import IdentityHub.Http.Outbound
import IdentityHub.Issuer.Catalog
import IdentityHub.Issuer.HolderKey
import IdentityHub.Issuer.Holders
import IdentityHub.Issuer.Mint
import IdentityHub.Issuer.Processes
import IdentityHub.Issuer.Delivery
import IdentityHub.Issuer.Redemption
import IdentityHub.Issuer.System
import IdentityHub.Issuer.Moves
import IdentityHub.Issuer.Lifecycle
import IdentityHub.Lib.JsonText
import IdentityHub.Lib.DidWeb
import IdentityHub.Reference
import IdentityHub.Issuer.Approval
import IdentityHub.Lib.Ledger
import IdentityHub.Issuer.Indexes
import IdentityHub.Issuer.Revocation
import IdentityHub.Issuer.LostAnswers
import IdentityHub.Issuer.SameDocument
import IdentityHub.Lib.Tickets
import IdentityHub.Oid4vci.ExpiringTable
import IdentityHub.Oid4vci.Proof
import IdentityHub.Oid4vci.Endpoints
import IdentityHub.Oid4vci.System
import IdentityHub.Oid4vci.Books
import IdentityHub.Oid4vci.Backing
import IdentityHub.Oid4vci.Calls
import IdentityHub.Oid4vci.Chain
import IdentityHub.Issuer.Requests
import IdentityHub.Issuer.Registry
import IdentityHub.Issuer.Copies
import IdentityHub.Issuer.Referenced
import IdentityHub.Issuer.RejectedRedemptions
import IdentityHub.Issuer.HandedOut
import IdentityHub.Issuer.Records
import IdentityHub.Hub.Effects
import IdentityHub.Hub.Auth
import IdentityHub.Hub.Replay
import IdentityHub.Hub.Validation
import IdentityHub.Hub.Presentation
import IdentityHub.Hub.Validity
import IdentityHub.Hub.Trust
import IdentityHub.Wallet.Accept
import IdentityHub.Wallet.SameAcceptance
import IdentityHub.Hub.Disclosure
import IdentityHub.Wallet.Messages
import IdentityHub.Wallet.Proofs
import IdentityHub.Wallet.KeyProofs
import IdentityHub.Wallet.Redeem
import IdentityHub.Wallet.Rounds
import IdentityHub.Hub.Vouched
import IdentityHub.Wallet.Confined
import IdentityHub.Wallet.Servers
import IdentityHub.Oid4vci.TableMemory
import IdentityHub.Oid4vci.TableOrder
import IdentityHub.Oid4vci.Panics
import IdentityHub.Issuer.AllOrNothing
import IdentityHub.Hub.Offers
import IdentityHub.Hub.Sts
import IdentityHub.Wallet.OwnIssuer
import IdentityHub.Graph.Store
import IdentityHub.Graph.Records
import IdentityHub.Graph.Content
import IdentityHub.Graph.Queries
import IdentityHub.Graph.Writes
import IdentityHub.Hub.Snapshots
import IdentityHub.Hub.Scopes
import IdentityHub.Wallet.WellKnown
import IdentityHub.Wallet.OfferUri
import IdentityHub.Issuer.Query
import IdentityHub.Issuer.QueryOrder
import IdentityHub.Issuer.QueryPages
import IdentityHub.Issuer.KeyFolding
import IdentityHub.Hub.Storage
import IdentityHub.Wallet.Custody
import IdentityHub.Graph.Holding
import IdentityHub.Graph.Sequence
import IdentityHub.Lib.Reduction
import IdentityHub.Graph.Concurrent
import IdentityHub.Graph.Exclusive
import IdentityHub.Lib.Base64
import IdentityHub.Http.ParticipantContext
import IdentityHub.Lib.WebUrl
import IdentityHub.Http.Redirects
import IdentityHub.Issuer.Outgoing
import IdentityHub.Http.Confinement
import IdentityHub.Lib.Draining
import IdentityHub.Issuer.Progress
import IdentityHub.Lib.Refines
import IdentityHub.Issuer.Views
import IdentityHub.Issuer.Admin
import IdentityHub.Issuer.Governance
import IdentityHub.Issuer.AdminViews
import IdentityHub.Lib.Ensures
import IdentityHub.Hub.Reception
import IdentityHub.Lib.Reaches
import IdentityHub.Lib.Yields
import IdentityHub.Oid4vci.Documents
import IdentityHub.Oid4vci.Granted
import IdentityHub.Wallet.BothSides
import IdentityHub.Wallet.Redeemable
