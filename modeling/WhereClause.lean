import WhereClause.Main
import WhereClause.Outline.Markup
import WhereClause.Outline.Path
import WhereClause.Proofs.Composition.Filter
import WhereClause.Proofs.Composition.Steps
import WhereClause.Proofs.Enclosure.Filter
import WhereClause.Proofs.Junction.Filter
import WhereClause.Proofs.LetterCase.Filter
import WhereClause.Proofs.Literal.Filter
import WhereClause.Proofs.Outline.Entries
import WhereClause.Proofs.Reading.Filter
import WhereClause.Proofs.Rendering.Weave
import WhereClause.Proofs.Resolution.Source
import WhereClause.Proofs.RoundTrip.Filter
import WhereClause.Proofs.Separation.Filter
import WhereClause.Proofs.Literal.Quoted
import WhereClause.Proofs.Scan.Cover
import WhereClause.Proofs.Scan.Offset
import WhereClause.Proofs.Fault.Expr
import WhereClause.Proofs.Fault.Outline
import WhereClause.Proofs.Fault.Filter
import WhereClause.Proofs.Fault.Span
import WhereClause.Proofs.Quotation.Filter
import WhereClause.Proofs.Expr.Application
import WhereClause.Proofs.Expr.Chain
import WhereClause.Proofs.Outline.Balance
import WhereClause.Proofs.Outline.Level
import WhereClause.Proofs.Literal.Number
import WhereClause.Proofs.Sql.Like
import WhereClause.Proofs.Sql.Search
import WhereClause.Proofs.Scan.Run
import WhereClause.Proofs.Scan.Symbol
import WhereClause.Proofs.Outline.Integrity
