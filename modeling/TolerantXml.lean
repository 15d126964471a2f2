import TolerantXml.Main
import TolerantXml.Tree.Namespace
import TolerantXml.Proofs.Scanner.Partition
import TolerantXml.Proofs.Scanner.Reachable
import TolerantXml.Proofs.Scanner.Subset
import TolerantXml.Proofs.Scanner.Protocol
import TolerantXml.Proofs.Scanner.TokenOrder
import TolerantXml.Proofs.Tree.Linked
import TolerantXml.Proofs.Tree.Preorder
import TolerantXml.Proofs.Tree.Memory
import TolerantXml.Proofs.Tree.Spine
import TolerantXml.Proofs.Tree.Moves
import TolerantXml.Proofs.Tree.Shifts
import TolerantXml.Proofs.Tree.Stages
import TolerantXml.Proofs.Reading.Run
import TolerantXml.Proofs.Reading.InStep
import TolerantXml.Proofs.Tree.Nested
import TolerantXml.Proofs.Reading.Nesting
import TolerantXml.Proofs.Print.Forest
import TolerantXml.Proofs.Scanner.Lexeme
import TolerantXml.Proofs.Scanner.Reads
import TolerantXml.Proofs.Tree.Opened
import TolerantXml.Proofs.Reading.Passes
import TolerantXml.Proofs.Print.ReadBack
import TolerantXml.Proofs.Reading.RoundTrip
import TolerantXml.Proofs.Reading.Openings
import TolerantXml.Proofs.Print.Declaration
import TolerantXml.Proofs.Scanner.ReadsDeclaration
import TolerantXml.Proofs.Tree.Declared
import TolerantXml.Proofs.Reading.Declarations
import TolerantXml.Proofs.Text.Lines
import TolerantXml.Proofs.Scanner.LongerText
import TolerantXml.Proofs.Scanner.Lookahead
import TolerantXml.Proofs.Scanner.Modes
import TolerantXml.Proofs.Scanner.Inside
import TolerantXml.Proofs.Scanner.StartTag
import TolerantXml.Proofs.Scanner.InternalSubset
import TolerantXml.Proofs.Scanner.Restart
import TolerantXml.Proofs.Scanner.Between
import TolerantXml.Proofs.Scanner.Insertion
import TolerantXml.Proofs.Tree.Moved
import TolerantXml.Proofs.Tree.Mirror
import TolerantXml.Proofs.Tree.MirrorTokens
import TolerantXml.Proofs.Tree.Spared
import TolerantXml.Proofs.Reading.Mirror
import TolerantXml.Proofs.Reading.InternalSubset
import TolerantXml.Proofs.Reading.Settled
import TolerantXml.Proofs.Reading.Lifetime
import TolerantXml.Proofs.Reading.Fragment
import TolerantXml.Proofs.Text.Positions
import TolerantXml.Proofs.Reading.NodeAt
import TolerantXml.Proofs.Reading.NodeBefore
import TolerantXml.Proofs.Tree.Innermost
import TolerantXml.Proofs.Tree.Landmarks
import TolerantXml.Proofs.Tree.Receding
import TolerantXml.Proofs.Tree.Ordered
import TolerantXml.Proofs.Reading.BrokenOff
import TolerantXml.Proofs.Reading.KindsNest
import TolerantXml.Proofs.Reading.DeclarationPlaces
import TolerantXml.Proofs.Scanner.TagNames
import TolerantXml.Proofs.Reading.TagTokens
import TolerantXml.Proofs.Reading.TagPartner
import TolerantXml.Proofs.Scanner.PrologEnd
import TolerantXml.Proofs.Tree.Owned
import TolerantXml.Proofs.Reading.TagPlaces
import TolerantXml.Proofs.Reading.TagPartnerSymmetry
import TolerantXml.Proofs.Print.TagPairs
import TolerantXml.Proofs.Reading.PrintedPartner
import TolerantXml.Proofs.Tree.EndTag
import TolerantXml.Proofs.Tree.Interrupted
import TolerantXml.Proofs.Reading.Boundaries
import TolerantXml.Proofs.Tree.AttributeList
import TolerantXml.Proofs.Tree.Attributes
import TolerantXml.Proofs.Scanner.InsideTag
import TolerantXml.Proofs.Reading.Attributes
import TolerantXml.Proofs.Reading.AttributesApart
import TolerantXml.Proofs.Reading.AttributeAt
import TolerantXml.Proofs.Tree.Kinds
import TolerantXml.Proofs.Reading.SameLine
import TolerantXml.Proofs.Tree.Fields
import TolerantXml.Proofs.Reading.Fields
import TolerantXml.Proofs.Scanner.Enclosed
import TolerantXml.Proofs.Tree.Enclosed
import TolerantXml.Proofs.Reading.Enclosed
import TolerantXml.Proofs.Text.LineBreaks
import TolerantXml.Proofs.Tree.ElementTags
import TolerantXml.Proofs.Reading.TagOffsets
import TolerantXml.Proofs.Reading.UnnamedEndTags
import TolerantXml.Proofs.Tree.Quoted
import TolerantXml.Proofs.Reading.Quoted
import TolerantXml.Proofs.Scanner.Group
import TolerantXml.Proofs.Scanner.SilentSteps
import TolerantXml.Proofs.Scanner.Words
import TolerantXml.Proofs.Tree.Outline
import TolerantXml.Proofs.Reading.Outline
import TolerantXml.Proofs.Reading.TagRegions
