import OfficeFormula.CommandLine.Disk
import OfficeFormula.Main
import OfficeFormula.Proofs.Agreement
import OfficeFormula.Proofs.Clipboard
import OfficeFormula.Proofs.Latex.Closing
import OfficeFormula.Proofs.Latex.Printable
import OfficeFormula.Proofs.Markdown.Code
import OfficeFormula.Proofs.Markdown.Marks
import OfficeFormula.Proofs.MathML.Layout
import OfficeFormula.Proofs.Omml.ReadBack
import OfficeFormula.Proofs.Span.Correspondence
import OfficeFormula.Proofs.Span.Rendered
import OfficeFormula.Proofs.Span.Simultaneous
import OfficeFormula.Proofs.Span.Fresh
import OfficeFormula.Proofs.Text.Fold
import OfficeFormula.Proofs.Text.Reader
import OfficeFormula.Proofs.Latex.WellFormed
import OfficeFormula.Proofs.Markup.Attributes
import OfficeFormula.Proofs.Markup.PlainText
import OfficeFormula.Proofs.Rendered.Clipboard
import OfficeFormula.Proofs.Rendered.Display
import OfficeFormula.Proofs.Rendered.ReadBack
import OfficeFormula.Proofs.Latex.RepeatedScripts
import OfficeFormula.Proofs.Span.Parentheses
import OfficeFormula.Proofs.MathML.Tables
import OfficeFormula.Proofs.Omml.Declarations
import OfficeFormula.Proofs.Span.Nested
import OfficeFormula.Proofs.Span.Chinese
import OfficeFormula.Proofs.Report.Wrap
import OfficeFormula.Proofs.CommandLine.Target
import OfficeFormula.Proofs.Latex.LineBreak
import OfficeFormula.Proofs.Latex.Spacing
import OfficeFormula.Proofs.Omml.Tags
import OfficeFormula.Proofs.Report.Print
