import DispatchTable.Pattern
import DispatchTable.Text.Blank
import DispatchTable.Text.Word

/-!
# Dialects

The functions of a table are declared twice. The plain header declares them with named arguments;
the extended header declares them with types only and with one argument more, the receiver. The two
dialects differ in the lead of a declaration, in the lead of the block that lays out the table, and
in how the declarations and the members of the block are written.
-/

namespace DispatchTable

/-- The two ways in which a header declares functions. -/
inductive Dialect where
  /-- Types and names, without the receiver. -/
  | plain
  /-- Types only, the receiver first. -/
  | extended
  deriving DecidableEq, Repr

namespace Dialect

/-- The header that is written in a dialect. -/
def header : Dialect → Text
  | plain => "pkcs11.h".toList
  | extended => "pkcs11i.h".toList

/-- The table whose slots the layout blocks of a dialect list. -/
def table : Dialect → Text
  | plain => "ck_function_list".toList
  | extended => "_CK_X_FUNCTION_LIST".toList

/-- How a line that opens a statement begins. -/
def statementLead : Dialect → Text
  | plain => "_CK_DECLARE_FUNCTION".toList
  | extended => "typedef CK_RV (* CK_X_".toList

/-- How a line that opens a layout block begins. -/
def blockLead : Dialect → Text
  | plain => "struct ck_function_list".toList
  | extended => "struct _CK_X_FUNCTION_LIST".toList

/-- How the type of a member begins; the name of its slot follows. -/
def memberLead : Dialect → Text
  | plain => "CK_C_".toList
  | extended => "CK_X_".toList

/-- Every character but a newline. -/
def inLine (c : Char) : Bool := c != '\n'

/-- A member of a layout block: its type, whose third piece is the name of the slot, blanks, and
anything up to a semicolon. -/
def memberPattern (d : Dialect) : Pattern :=
  [.star isBlank, .exact d.memberLead, .plus (!isBlank ·), .plus isBlank, .star inLine,
    .exact [';']]

/-- A complete declaration; its fourth piece is the name and its sixth or seventh, by dialect, the
text of the arguments. -/
def declarationPattern : Dialect → Pattern
  | plain =>
    [.exact plain.statementLead, .star isBlank, .exact "(C_".toList, .plus isWord,
      .exact ", (".toList, .star inLine, .exact "));".toList]
  | extended =>
    [.exact extended.statementLead, .plus isWord, .exact [')'], .star isBlank, .exact ['('],
      .star inLine, .exact ");".toList]

/-- One argument among others: a plain one is a type, of which the second to fourth pieces are
parts, and a name; an extended one is a type only, its second piece. -/
def argumentPattern : Dialect → Pattern
  | plain =>
    [.star isBlank, .plus (· != ','), .plus isBlank, .star (· == '*'),
      .plus fun c => c != ',' && c != ' ']
  | extended => [.star isBlank, .plus (· != ',')]

end Dialect

end DispatchTable
