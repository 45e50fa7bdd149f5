import ThreadComponent.HeaderText
import ThreadComponent.HttpResponse

/-!
# Header fields of cHTTPClient, cHTTPServer and cHTTPSServer

The three classes have the same record for a field and the same helper functions on names and
values. A character of a string stands for one byte of the `std::string`; the character classes
are those of the "C" locale.
-/

set_option autoImplicit false

namespace ThreadComponent

open HeaderText

def isspace (c : Char) : Bool :=
  c = ' ' || c = '\t' || c = '\n' || c = '\x0b' || c = '\x0c' || c = '\r'

def trimCopy (text : List Char) : List Char := trim isspace text

def iequals (lhs rhs : List Char) : Bool :=
  lhs.length = rhs.length && (lhs.zip rhs).all fun p => p.1.toLower = p.2.toLower

def hasHeader (headers : Fields) (headerName : String) : Bool :=
  headers.any fun header => iequals header.name.toList headerName.toList

def Field.text (f : Field) : List Char × List Char := (f.name.toList, f.value.toList)

end ThreadComponent
