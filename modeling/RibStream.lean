import RibStream.Proofs.Archive.Accounting
import RibStream.Proofs.Archive.Agreement
import RibStream.Proofs.Archive.Comments
import RibStream.Proofs.Archive.Truncation
import RibStream.Proofs.Basis.Recognition
import RibStream.Proofs.Binary.CodeHistory
import RibStream.Proofs.Decimal.SingleReading
import RibStream.Proofs.Declaration.Qualified
import RibStream.Proofs.Registry.Numbering
import RibStream.Proofs.Writer.Declarations
import RibStream.Proofs.Writer.Failure
import RibStream.Proofs.Writer.Handles
import RibStream.Proofs.Writer.SearchPath
import RibStream.Proofs.Decimal.Significant
import RibStream.Proofs.Decimal.Notation
import RibStream.Proofs.SearchPath.Expand
import RibStream.Proofs.SearchPath.Lookup
import RibStream.Proofs.Declaration.Grammar
import RibStream.Proofs.Text.Delimited
import RibStream.Proofs.Binary.Word
import RibStream.Proofs.SearchPath.NormalForm
import RibStream.Proofs.Basis.Request
