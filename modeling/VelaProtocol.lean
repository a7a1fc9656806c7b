import VelaProtocol.Properties.Accrual
import VelaProtocol.Properties.Adjustments
import VelaProtocol.Properties.Agreement
import VelaProtocol.Properties.Approvals
import VelaProtocol.Properties.Archive
import VelaProtocol.Properties.Backing
import VelaProtocol.Properties.Cadence
import VelaProtocol.Properties.Charges
import VelaProtocol.Properties.Consent
import VelaProtocol.Properties.CredentialCounts
import VelaProtocol.Properties.Credit
import VelaProtocol.Properties.Decoders
import VelaProtocol.Properties.Departures
import VelaProtocol.Properties.Edits
import VelaProtocol.Properties.Exits
import VelaProtocol.Properties.FailClosed
import VelaProtocol.Properties.Finalisation
import VelaProtocol.Properties.Flights
import VelaProtocol.Properties.Governance
import VelaProtocol.Properties.Identities
import VelaProtocol.Properties.Indexer
import VelaProtocol.Properties.Limits
import VelaProtocol.Properties.MetaLists
import VelaProtocol.Properties.Metering
import VelaProtocol.Properties.Mints
import VelaProtocol.Properties.Padding
import VelaProtocol.Properties.Pause
import VelaProtocol.Properties.Payees
import VelaProtocol.Properties.PendingChanges
import VelaProtocol.Properties.Periods
import VelaProtocol.Properties.PlanHistory
import VelaProtocol.Properties.PlanLayouts
import VelaProtocol.Properties.Plans
import VelaProtocol.Properties.Prorations
import VelaProtocol.Properties.Pulls
import VelaProtocol.Properties.Records
import VelaProtocol.Properties.Recovery
import VelaProtocol.Properties.Resizing
import VelaProtocol.Properties.RoundTrip
import VelaProtocol.Properties.Rounding
import VelaProtocol.Properties.Scheduled
import VelaProtocol.Properties.SettledFlag
import VelaProtocol.Properties.Settlements
import VelaProtocol.Properties.Signing
import VelaProtocol.Properties.Solvency
import VelaProtocol.Properties.Soundness
import VelaProtocol.Properties.Spending
import VelaProtocol.Properties.Splits
import VelaProtocol.Properties.Stranding
import VelaProtocol.Properties.Streams
import VelaProtocol.Properties.Tiers
import VelaProtocol.Properties.Upgrades
import VelaProtocol.Properties.Wallets
import VelaProtocol.Stored
