import DesignTokens.Main
import DesignTokens.Program.Session
import DesignTokens.Proofs.BalancedText
import DesignTokens.Proofs.DeclaredNames
import DesignTokens.Proofs.Resolution
import DesignTokens.Proofs.PrintedNumbers
import DesignTokens.Proofs.Rendering
import DesignTokens.Proofs.FlatPaths
import DesignTokens.Proofs.OwnPaths
import DesignTokens.Proofs.Arrangement
import DesignTokens.Proofs.EscapedNames
import DesignTokens.Proofs.DecimalValues
import DesignTokens.Proofs.ReadingBack
import DesignTokens.Proofs.ChannelIntensity
import DesignTokens.Proofs.FaithfulText
import DesignTokens.Proofs.Accounting
import DesignTokens.Proofs.WrittenFiles
import DesignTokens.Proofs.CommandRuns
import DesignTokens.Proofs.DryRun
import DesignTokens.Proofs.TouchedFiles
import DesignTokens.Proofs.ConfigRoundTrip
import DesignTokens.Proofs.SettledAliases
import DesignTokens.Proofs.InnerJoin
import DesignTokens.Proofs.SectionReading
import DesignTokens.Proofs.FlatteningOrder
import DesignTokens.Proofs.DistinctPaths
import DesignTokens.Proofs.DelimiterFaults
import DesignTokens.Proofs.HexReading
import DesignTokens.Proofs.AlphaOverrides
import DesignTokens.Proofs.UnitSuffixes
import DesignTokens.Proofs.ReferenceSpellings
import DesignTokens.Proofs.NameFaults
import DesignTokens.Proofs.SpelledNames
import DesignTokens.Proofs.RecasedNames
import DesignTokens.Proofs.RemovedCategories
import DesignTokens.Proofs.TiedSizes
import DesignTokens.Proofs.ReplacedAlpha
import DesignTokens.Proofs.InputArguments
