import MessageLookup.Bytes
import MessageLookup.Text
import MessageLookup.Text.Utf8
import MessageLookup.Capacity
import MessageLookup.LookupError
import MessageLookup.Fill
import MessageLookup.Event
import MessageLookup.Growth
import MessageLookup.Options
import MessageLookup.Options.Edit
import MessageLookup.Backend
import MessageLookup.Host.Reply
import MessageLookup.Host.Script
import MessageLookup.Host
import MessageLookup.Host.Glibc
import MessageLookup.Lookup
import MessageLookup.Sink
import MessageLookup.Report
import MessageLookup.Session
import MessageLookup.Program
import MessageLookup.Main
import MessageLookup.Proofs.Growth
import MessageLookup.Proofs.Persistence
import MessageLookup.Proofs.Readings
import MessageLookup.Proofs.FreshBuffer
import MessageLookup.Proofs.Calls
import MessageLookup.Proofs.SilentCut
import MessageLookup.Proofs.VisibleCut
import MessageLookup.Proofs.WholeMessage
import MessageLookup.Proofs.FirstDecisive
import MessageLookup.Proofs.Failures
import MessageLookup.Proofs.Delivery
import MessageLookup.Proofs.Reports
import MessageLookup.Proofs.Decoding
import MessageLookup.Proofs.GlibcLookups
import MessageLookup.Proofs.Bounds
import MessageLookup.Proofs.Resumption
import MessageLookup.Proofs.SessionLookups
import MessageLookup.Proofs.Interference
import MessageLookup.Proofs.WellFormed
import MessageLookup.Proofs.CutText
import MessageLookup.Proofs.Scratch
import MessageLookup.Proofs.Sealing
import MessageLookup.Proofs.ZeroStatus
import MessageLookup.Proofs.InsidePointers
import MessageLookup.Proofs.Words
import MessageLookup.Proofs.ReadBack
import MessageLookup.Proofs.EditHistory
