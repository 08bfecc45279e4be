import SignatureText.Proofs.Declaration.Attribute
import SignatureText.Proofs.Declaration.Building
import SignatureText.Proofs.Declaration.EnumDefault
import SignatureText.Proofs.Declaration.Name
import SignatureText.Proofs.Declaration.Parameter
import SignatureText.Proofs.Json.Quoted
import SignatureText.Proofs.Json.Scanner
import SignatureText.Proofs.Literal.EnumValue
import SignatureText.Proofs.Literal.Integer
import SignatureText.Proofs.Literal.Quoted
import SignatureText.Proofs.Literal.Real
import SignatureText.Proofs.Literal.Refused
import SignatureText.Proofs.Literal.Said
import SignatureText.Proofs.Literal.Unique
import SignatureText.Proofs.Model.Description
import SignatureText.Proofs.Model.Integral
import SignatureText.Proofs.Number.Binary
import SignatureText.Proofs.Number.Decimal
import SignatureText.Proofs.Number.Digits
import SignatureText.Proofs.Number.FewDigits
import SignatureText.Proofs.Number.Fewest
import SignatureText.Proofs.Number.Midpoints
import SignatureText.Proofs.Number.Nearest
import SignatureText.Proofs.Number.Neighbours
import SignatureText.Proofs.Number.Numeral
import SignatureText.Proofs.Number.Scaling
import SignatureText.Proofs.Number.Shortest
import SignatureText.Proofs.Number.Spelling
import SignatureText.Proofs.Outcome
import SignatureText.Proofs.Signature.Leniency
import SignatureText.Proofs.Signature.Lines
import SignatureText.Proofs.Signature.Names
import SignatureText.Proofs.Signature.Nullable
import SignatureText.Proofs.Signature.Rejected
import SignatureText.Proofs.Signature.Survivors
import SignatureText.Proofs.Signature.Variadic
import SignatureText.Proofs.Text.Character
import SignatureText.Proofs.Wire.NormalForm
import SignatureText.Proofs.Wire.Numbers
import SignatureText.Proofs.Wire.Provenance
import SignatureText.Proofs.Wire.Reading
import SignatureText.Proofs.Wire.Real
import SignatureText.Proofs.Wire.Records
import SignatureText.Proofs.Wire.Respelling
import SignatureText.Proofs.Wire.RoundTrip
import SignatureText.Proofs.Wire.Settled
import SignatureText.Proofs.Wire.Sources
