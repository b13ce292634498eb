import Quawk.ExitLaw
import Quawk.TypeSoundness
import Quawk.ResidencySoundness
import Quawk.RuntimeRecord
import Quawk.MainInput
import Quawk.ReadErrors
import Quawk.InputFailure
import Quawk.StreamTables
import Quawk.NumberText
import Quawk.CallTransparency
import Quawk.Getline
import Quawk.ComparisonKinds
import Quawk.ArrayBinding
import Quawk.Truthiness
import Quawk.UnsetScalars
import Quawk.ProgramStorage
import Quawk.FieldCount
import Quawk.FormatCaches
import Quawk.ArrayRefinement
import Quawk.NumeralAgreement
import Quawk.AnalysisSoundness
import Quawk.StateLayout
import Quawk.DriverLaw
import Quawk.PreservedText
import Quawk.ProgramFiles
import Quawk.ForInLoop
import Quawk.TempStrings
import Quawk.LoopVariable
import Quawk.ArrayKeys
import Quawk.FrontEnd
import Quawk.SlashContext
import Quawk.PosixPrinting
import Quawk.OperatorPrecedence
import Quawk.ComparisonLaws
import Quawk.FieldSplitting
import Quawk.Lib.Matching
import Quawk.Lib.Spans
import Quawk.SplitAgreement
import Quawk.SplitConservation
import Quawk.SubstituteReference
import Quawk.BuiltinCoherence
import Quawk.ConditionalArms
import Quawk.PrintUnit
import Quawk.ArrayNames
import Quawk.CallResolution
import Quawk.FunctionNames
import Quawk.Lib.CFormat
import Quawk.Lib.EndingRun
import Quawk.OutputVariables
import Quawk.PrintfPaths
import Quawk.ExpressionLevels
import Quawk.GetlineOperands
import Quawk.RedirectLaw
import Quawk.Lib.DigitRounding
import Quawk.NumberLiterals
import Quawk.Concatenation
import Quawk.Lib.Bisect
import Quawk.Lib.CongruentialGenerator
import Quawk.Lib.GrowingTable
import Quawk.RandomNumbers
import Quawk.RegexLiterals
import Quawk.SlotTables
import Quawk.SourceLocations
import Quawk.TokenSpans
import Quawk.Lib.CoupledRun
import Quawk.NumericAgreement
import Quawk.PrintedExpressions
import Quawk.StringPositions
import Quawk.RangeFlags
import Quawk.RecordReadBack
import Quawk.SourceMeaning
import Quawk.SubstringCalls
