import ParserAlgebra.Session
import ParserAlgebra.Proofs.Nesting
import ParserAlgebra.Proofs.Upkeep
import ParserAlgebra.Proofs.Framing
import ParserAlgebra.Proofs.Rendering
import ParserAlgebra.Proofs.Adequacy
import ParserAlgebra.Proofs.Derivation
import ParserAlgebra.Proofs.Listing
import ParserAlgebra.Proofs.OrderedChoice
import ParserAlgebra.Proofs.Marks
import ParserAlgebra.Proofs.Coverage
import ParserAlgebra.Proofs.Diagnosis
import ParserAlgebra.Proofs.Excerpt
import ParserAlgebra.Proofs.Involvement
import ParserAlgebra.Proofs.Logging
import ParserAlgebra.Proofs.Blindness
import ParserAlgebra.Proofs.Relocation
import ParserAlgebra.Proofs.Tokenwise
import ParserAlgebra.Proofs.LeftRecursion
import ParserAlgebra.Proofs.Lookahead
import ParserAlgebra.Proofs.NamedRule
import ParserAlgebra.Proofs.Unfolding
import ParserAlgebra.Proofs.Naming
import ParserAlgebra.Proofs.WriteOnce
import ParserAlgebra.Proofs.Lifetime
import ParserAlgebra.Proofs.Presence
import ParserAlgebra.Proofs.Results
import ParserAlgebra.Proofs.Exclusion
import ParserAlgebra.Proofs.Lifting
import ParserAlgebra.Proofs.Gathering
import ParserAlgebra.Proofs.DerivedForms
import ParserAlgebra.Proofs.Repetition
import ParserAlgebra.Proofs.Spelling
import ParserAlgebra.Proofs.Positions
import ParserAlgebra.Proofs.Checkpoints
import ParserAlgebra.Proofs.Tokens
import ParserAlgebra.Proofs.SelfDelimiting
import ParserAlgebra.Proofs.PredicateName
import ParserAlgebra.Proofs.RunParts
import ParserAlgebra.Proofs.TokenStarts
import ParserAlgebra.Proofs.Collecting
import ParserAlgebra.Proofs.Walk
import ParserAlgebra.Proofs.ListingOrder
import ParserAlgebra.Proofs.Outline
import ParserAlgebra.Proofs.OutlineReading
import ParserAlgebra.Proofs.WholeInput
