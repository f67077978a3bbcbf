import ChainQuery.Main
import ChainQuery.Payload.Field
import ChainQuery.Sample
import ChainQuery.Proofs.History.Formats
import ChainQuery.Proofs.History.Settlement
import ChainQuery.Proofs.Transaction.RoundTrip
import ChainQuery.Proofs.Transaction.SelfDelimiting
import ChainQuery.Proofs.Payload.Written
import ChainQuery.Proofs.Reply.Rows
import ChainQuery.Proofs.Request.Server
import ChainQuery.Proofs.Session.Registry
import ChainQuery.Proofs.History.Interleaving
import ChainQuery.Proofs.History.CompactForm
import ChainQuery.Proofs.Address
import ChainQuery.Proofs.CommandLine.Run
import ChainQuery.Proofs.History.Codec
import ChainQuery.Proofs.Stealth
import ChainQuery.Proofs.Reply.Fixed
import ChainQuery.Proofs.Prefix.Matching
import ChainQuery.Proofs.Settings
import ChainQuery.Proofs.Settings.Precedence
import ChainQuery.Proofs.Json.Layout
import ChainQuery.Proofs.CommandLine.Printed
import ChainQuery.Proofs.CommandLine.Submission
import ChainQuery.Proofs.Json.Injective
import ChainQuery.Proofs.Document
import ChainQuery.Proofs.History.Queues
import ChainQuery.Proofs.OutPoint
