import Signpost.Broadcast
import Signpost.Main
import Signpost.Proofs.Service.Dispatch
import Signpost.Service.Gateway
import Signpost.Proofs.Endpoint.Filled
import Signpost.Proofs.Service.Admission
import Signpost.Proofs.Service.Body
import Signpost.Proofs.Service.Gateway
import Signpost.Proofs.Service.DeclaredLength
import Signpost.Proofs.Service.Lookups
import Signpost.Proofs.Service.Handlers
import Signpost.Proofs.Service.Run
import Signpost.Proofs.Users.Handlers
import Signpost.Proofs.Users.Store
import Signpost.Proofs.Json.Text
import Signpost.Proofs.Path
import Signpost.Proofs.Users.Refused
import Signpost.Proofs.Users.Routes
import Signpost.Proofs.Users.Register
import Signpost.Proofs.Users.Fetch
import Signpost.Proofs.Endpoint.CommonRequest
import Signpost.Proofs.Endpoint.Check
import Signpost.Proofs.Endpoint.Signature
import Signpost.Proofs.Service.Binding
import Signpost.Proofs.Service.DeclaredOutputs
import Signpost.Proofs.Pattern.Spelling
import Signpost.Proofs.Role.Reading
import Signpost.Proofs.Role.Distinct
import Signpost.Proofs.Endpoint.Resources
import Signpost.Proofs.ParamType
import Signpost.Proofs.Endpoint.WellFormed
import Signpost.Proofs.ParamType.Printed
import Signpost.Proofs.Path.Spelling
import Signpost.Proofs.Service.Form
import Signpost.Proofs.Settings.Keys
import Signpost.Proofs.Text.Integer
import Signpost.Proofs.Validator.Integer
import Signpost.Proofs.Validator.Canonical
import Signpost.Proofs.Service.InputOrder
import Signpost.Proofs.Json.Shape
import Signpost.Proofs.Manifest.Document
