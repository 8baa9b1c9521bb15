import Leapfrog.Backend.StandIn
import Leapfrog.Chart
import Leapfrog.Json.Reader
import Leapfrog.Parity
import Leapfrog.Simulation.Checked
import Leapfrog.State.Given
import Leapfrog.Proofs.AtomStep
import Leapfrog.Proofs.StepLoop
import Leapfrog.Proofs.Launch
import Leapfrog.Proofs.Advance
import Leapfrog.Proofs.DiscreteTrajectory
import Leapfrog.Proofs.ReferenceFlow
import Leapfrog.Proofs.RunResults
import Leapfrog.Proofs.BackendAgreement
import Leapfrog.Proofs.Comparison
import Leapfrog.Proofs.ExactVerdict
import Leapfrog.Proofs.KeptAtoms
import Leapfrog.Proofs.Places
import Leapfrog.Proofs.RunVerdict
import Leapfrog.Proofs.Doubles
import Leapfrog.Proofs.AdvanceOutcome
import Leapfrog.Proofs.SharedMemory
import Leapfrog.Proofs.StateAdvance
import Leapfrog.Proofs.AllOrNothing
import Leapfrog.Proofs.Composition
import Leapfrog.Proofs.Locality
import Leapfrog.Proofs.RunCompletion
import Leapfrog.Proofs.NearestDouble
import Leapfrog.Proofs.SmallerSystems
import Leapfrog.Proofs.DoubleOrder
import Leapfrog.Proofs.CalibrationCurve
import Leapfrog.Proofs.ReportViews
import Leapfrog.Proofs.DecimalValue
import Leapfrog.Proofs.ShortestDigits
import Leapfrog.Proofs.NumberText
import Leapfrog.Proofs.EscapedText
import Leapfrog.Proofs.DocumentText
import Leapfrog.Proofs.SavedReport
import Leapfrog.Proofs.ArrayConditions
import Leapfrog.Proofs.Columns
import Leapfrog.Proofs.LastingValidity
import Leapfrog.Proofs.BuiltSimulations
import Leapfrog.Proofs.MassesPerAxis
import Leapfrog.Proofs.UnsignedDoubles
import Leapfrog.Proofs.ValidatorAgreement
import Leapfrog.Proofs.MassSensitivity
import Leapfrog.Proofs.ProbeHistory
import Leapfrog.Proofs.RegistryLookup
import Leapfrog.Proofs.RunLog
import Leapfrog.Proofs.ProgressLog
import Leapfrog.Proofs.RunNumbers
import Leapfrog.Proofs.ParityCheck
import Leapfrog.Proofs.RoundedMantissas
import Leapfrog.Proofs.RoundedProducts
import Leapfrog.Proofs.LooserTolerance
import Leapfrog.Proofs.DoubleDifferences
import Leapfrog.Proofs.TableComparison
import Leapfrog.Proofs.GridEnumeration
import Leapfrog.Proofs.Zeros
import Leapfrog.Proofs.SyntheticPeriods
import Leapfrog.Proofs.RestingAtoms
import Leapfrog.Proofs.DoubleSigns
import Leapfrog.Proofs.RefusedNumbers
import Leapfrog.Proofs.ReportLines
import Leapfrog.Proofs.FixedDecimals
import Leapfrog.Proofs.DescribedScenarios
