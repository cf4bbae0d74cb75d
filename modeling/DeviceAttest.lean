import DeviceAttest.Bytes
import DeviceAttest.Der.Element
import DeviceAttest.Der.Integer
import DeviceAttest.Key.Param
import DeviceAttest.Key.Status
import DeviceAttest.Identifier
import DeviceAttest.KeyDescription.Parse
import DeviceAttest.X509.Certificate
import DeviceAttest.Chain.Basic
import DeviceAttest.Call.Attest
import DeviceAttest.Call.Scripted
import DeviceAttest.Json.Data
import DeviceAttest.Toml.Document
import DeviceAttest.Settings.Document
import DeviceAttest.Log.Directive
import DeviceAttest.Log.Logger
import DeviceAttest.Proofs.Call.Path
import DeviceAttest.Proofs.Call.Course
import DeviceAttest.Proofs.Call.Collect
import DeviceAttest.Proofs.Call.Lifecycle
import DeviceAttest.Proofs.Alias
import DeviceAttest.Proofs.Call.Form
import DeviceAttest.Proofs.Call.Numbers
import DeviceAttest.Proofs.Call.Custody
import DeviceAttest.Proofs.Call.Residents
import DeviceAttest.Proofs.Call.Rename
import DeviceAttest.Proofs.Call.Conduct
import DeviceAttest.Proofs.Call.Underway
import DeviceAttest.Proofs.Call.Interleaving
import DeviceAttest.Proofs.Call.Noninterference
import DeviceAttest.Proofs.Der.Element
import DeviceAttest.Proofs.Der.Integer
import DeviceAttest.Proofs.KeyDescription.RoundTrip
import DeviceAttest.Proofs.Der.Spelling
import DeviceAttest.Proofs.Der.Signed
import DeviceAttest.Proofs.KeyDescription.Collection
import DeviceAttest.Proofs.KeyDescription.Layout
import DeviceAttest.Proofs.KeyDescription.TagNumber
import DeviceAttest.Proofs.KeyDescription.Unread
import DeviceAttest.Proofs.KeyDescription.Placement
import DeviceAttest.Proofs.Call.Reading
import DeviceAttest.Proofs.Call.Attested
import DeviceAttest.Proofs.Chain.Decoding
import DeviceAttest.Proofs.Drawing
import DeviceAttest.Proofs.Call.Stages
import DeviceAttest.Proofs.Call.Outcome
import DeviceAttest.Proofs.Chain.Joining
import DeviceAttest.Proofs.Call.Events
import DeviceAttest.Proofs.Call.Reports
import DeviceAttest.Proofs.Log.Reading
import DeviceAttest.Proofs.Log.Installation
import DeviceAttest.Proofs.Call.Demand
import DeviceAttest.Proofs.Call.Plan
import DeviceAttest.Proofs.Call.Collection
import DeviceAttest.Proofs.KeyDescription.PrefixFree
import DeviceAttest.Proofs.X509.Remainder
import DeviceAttest.Proofs.Chain.Concatenation
import DeviceAttest.Proofs.Der.Shortest
import DeviceAttest.Proofs.KeyDescription.Normal
import DeviceAttest.Proofs.Key.Param
import DeviceAttest.Proofs.Call.Parameters
import DeviceAttest.Proofs.Call.Requested
import DeviceAttest.Proofs.Der.Guarded
import DeviceAttest.Proofs.KeyDescription.Guarded
import DeviceAttest.Proofs.Der.Distinguished
import DeviceAttest.Proofs.Settings.Overlay
import DeviceAttest.Proofs.KeyDescription.Distinguished
import DeviceAttest.Proofs.Der.Alternatives
import DeviceAttest.Proofs.Key.Operations
import DeviceAttest.Proofs.Json.Data
import DeviceAttest.Proofs.Call.Refusals
import DeviceAttest.Proofs.KeyDescription.Number
