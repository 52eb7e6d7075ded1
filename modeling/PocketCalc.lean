import PocketCalc.Main
import PocketCalc.Proofs.Sequence.Cutting
import PocketCalc.Proofs.Grammar.Reading
import PocketCalc.Proofs.Decimal.Normal
import PocketCalc.Proofs.Evaluation.Windows
import PocketCalc.Proofs.Evaluation.Flat
import PocketCalc.Proofs.Evaluation.Stages
import PocketCalc.Proofs.Evaluation.Factorials
import PocketCalc.Proofs.Evaluation.Value
import PocketCalc.Proofs.Decimal.Numeral
import PocketCalc.Proofs.Editor.Implied
import PocketCalc.Proofs.Editor.Invariant
import PocketCalc.Proofs.Editor.Typing
import PocketCalc.Proofs.Editor.Erasing
import PocketCalc.Proofs.Session.Reachable
import PocketCalc.Proofs.Session.Refusal
import PocketCalc.Proofs.Grammar.Written
import PocketCalc.Proofs.Session.Typing
import PocketCalc.Proofs.Json.Escape
import PocketCalc.Proofs.Json.Roundtrip
import PocketCalc.Proofs.Decimal.Rational
import PocketCalc.Proofs.History.Document
import PocketCalc.Proofs.History.Roundtrip
import PocketCalc.Proofs.Editor.Neighbours
import PocketCalc.Proofs.Session.Representation
import PocketCalc.Proofs.Editor.Edits
import PocketCalc.Proofs.Session.Outcome
import PocketCalc.Proofs.Session.Records
import PocketCalc.Proofs.Disk.Places
import PocketCalc.Proofs.Disk.Replacing
import PocketCalc.Proofs.History.Storing
import PocketCalc.Proofs.Session.Stores
import PocketCalc.Proofs.Session.Screen
import PocketCalc.Proofs.Decimal.Rounding
import PocketCalc.Proofs.Session.Undoing
import PocketCalc.Proofs.Session.Frames
import PocketCalc.Proofs.Session.Interference
import PocketCalc.Proofs.Evaluation.Context
import PocketCalc.Proofs.Session.Continuing
import PocketCalc.Proofs.Decimal.Factorial
import PocketCalc.Proofs.Session.Brackets
import PocketCalc.Proofs.Session.Emptying
import PocketCalc.Proofs.Decimal.Shortening
import PocketCalc.Proofs.Decimal.Canonical
import PocketCalc.Proofs.Editor.Undoing
import PocketCalc.Proofs.Rendering.Numbers
import PocketCalc.Proofs.Editor.Buffer
import PocketCalc.Proofs.Session.LeadingZeros
import PocketCalc.Proofs.Session.Display
import PocketCalc.Proofs.Session.Recalling
import PocketCalc.Proofs.Session.Ignored
import PocketCalc.Proofs.History.Decoding
import PocketCalc.Proofs.Evaluation.Steps
import PocketCalc.Proofs.Constant.Series
