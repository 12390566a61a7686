import JavaSketch.Main
import JavaSketch.Proofs.Alignment
import JavaSketch.Proofs.BrokenSources
import JavaSketch.Proofs.DocumentFolder
import JavaSketch.Proofs.FieldScopes
import JavaSketch.Proofs.FoundOnce
import JavaSketch.Proofs.LeftOver
import JavaSketch.Proofs.LineOffsets
import JavaSketch.Proofs.SharedLines
import JavaSketch.Proofs.SharedNames
import JavaSketch.Proofs.SpanOrder
import JavaSketch.Proofs.SwitchPlaces
import JavaSketch.Proofs.TableSections
import JavaSketch.Proofs.Uncommented
import JavaSketch.Proofs.LineRanges
import JavaSketch.Proofs.Reordering
import JavaSketch.Proofs.CanonicalTokens
import JavaSketch.Proofs.CanonicalLayout
import JavaSketch.Proofs.CanonicalWords
import JavaSketch.Proofs.RepeatedCleanup
import JavaSketch.Proofs.SyntaxErrors
import JavaSketch.Proofs.ModuleNames
import JavaSketch.Proofs.StackWalks
import JavaSketch.Proofs.NodeTexts
