import Interchange.Yaml.Source

/-!
Why a text is not well-formed YAML.
-/

namespace Interchange.Yaml

/-- What was being read when a flaw was met. -/
inductive Construct where
  | token
  | simpleKey
  | directive
  | versionDirective
  | tagDirective
  | tagDirectiveHandle
  | tagDirectiveName
  | tagDirectiveAddress
  | anchor
  | alias
  | tag
  | tagAddress
  | blockScalar
  | quotedScalar
  | quotedEscape
  | plainScalar
  | node
  | blockNode
  | flowNode
  | blockSequence
  | blockMapping
  | flowSequence
  | flowMapping
  deriving DecidableEq, Repr

def Construct.message : Construct → String
  | .token => "while scanning for the next token"
  | .simpleKey => "while scanning a simple key"
  | .directive => "while scanning a directive"
  | .versionDirective => "while scanning a %YAML directive"
  | .tagDirective => "while scanning a %TAG directive"
  | .tagDirectiveHandle => "while scanning a tag directive"
  | .tagDirectiveName => "while parsing a tag directive"
  | .tagDirectiveAddress => "while parsing a %TAG directive"
  | .anchor => "while scanning an anchor"
  | .alias => "while scanning an alias"
  | .tag => "while scanning a tag"
  | .tagAddress => "while parsing a tag"
  | .blockScalar => "while scanning a block scalar"
  | .quotedScalar => "while scanning a quoted scalar"
  | .quotedEscape => "while parsing a quoted scalar"
  | .plainScalar => "while scanning a plain scalar"
  | .node => "while parsing a node"
  | .blockNode => "while parsing a block node"
  | .flowNode => "while parsing a flow node"
  | .blockSequence => "while parsing a block collection"
  | .blockMapping => "while parsing a block mapping"
  | .flowSequence => "while parsing a flow sequence"
  | .flowMapping => "while parsing a flow mapping"

/-- What is wrong. -/
inductive Flaw where
  | controlCharacter (offset : Nat)
  | noTokenStart
  | keyWithoutValue
  | sequenceEntryHere
  | mappingKeyHere
  | mappingValueHere
  | unknownDirective
  | namelessDirective
  | directiveName
  | directiveEnd
  | versionDigit
  | versionLength
  | versionMissing
  | versionUnknown
  | versionTwice
  | handleTwice
  | handleSpace
  | handleMark
  | handleUnknown
  | addressMissing
  | addressEscape
  | addressLeadingOctet
  | addressTrailingOctet
  | addressEnd
  | tagEnd
  | anchorName
  | unknownAnchor
  | zeroIndent
  | scalarHeaderEnd
  | tabIndent
  | documentBoundary
  | unclosedQuote
  | unknownEscape
  | escapeDigits
  | escapeCode
  | colonInFlow
  | plainTab
  | documentStart
  | nodeContent
  | blockEntry
  | blockKey
  | flowSequenceEntry
  | flowMappingEntry
  deriving DecidableEq, Repr

def Flaw.message : Flaw → String
  | .controlCharacter _ => "control characters are not allowed"
  | .noTokenStart => "found character that cannot start any token"
  | .keyWithoutValue => "could not find expected ':'"
  | .sequenceEntryHere => "block sequence entries are not allowed in this context"
  | .mappingKeyHere => "mapping keys are not allowed in this context"
  | .mappingValueHere => "mapping values are not allowed in this context"
  | .unknownDirective => "found unknown directive name"
  | .namelessDirective => "could not find expected directive name"
  | .directiveName => "found unexpected non-alphabetical character"
  | .directiveEnd | .scalarHeaderEnd => "did not find expected comment or line break"
  | .versionDigit => "did not find expected digit or '.' character"
  | .versionLength => "found extremely long version number"
  | .versionMissing => "did not find expected version number"
  | .versionUnknown => "found incompatible YAML document"
  | .versionTwice => "found duplicate %YAML directive"
  | .handleTwice => "found duplicate %TAG directive"
  | .handleSpace => "did not find expected whitespace"
  | .handleMark => "did not find expected '!'"
  | .handleUnknown => "found undefined tag handle"
  | .addressMissing => "did not find expected tag URI"
  | .addressEscape => "did not find URI escaped octet"
  | .addressLeadingOctet => "found an incorrect leading UTF-8 octet"
  | .addressTrailingOctet => "found an incorrect trailing UTF-8 octet"
  | .addressEnd => "did not find the expected '>'"
  | .tagEnd => "did not find expected whitespace or line break"
  | .anchorName => "did not find expected alphabetic or numeric character"
  | .unknownAnchor => "unknown anchor"
  | .zeroIndent => "found an indentation indicator equal to 0"
  | .tabIndent => "found a tab character where an indentation space is expected"
  | .documentBoundary => "found unexpected document indicator"
  | .unclosedQuote => "found unexpected end of stream"
  | .unknownEscape => "found unknown escape character"
  | .escapeDigits => "did not find expected hexdecimal number"
  | .escapeCode => "found invalid Unicode character escape code"
  | .colonInFlow => "found unexpected ':'"
  | .plainTab => "found a tab character that violates indentation"
  | .documentStart => "did not find expected <document start>"
  | .nodeContent => "did not find expected node content"
  | .blockEntry => "did not find expected '-' indicator"
  | .blockKey => "did not find expected key"
  | .flowSequenceEntry => "did not find expected ',' or ']'"
  | .flowMappingEntry => "did not find expected ',' or '\x7d'"

/-- A flaw, the place where it was met, and the construct that was being read, with its beginning. -/
structure Fault where
  flaw : Flaw
  mark : Mark
  within : Option (Construct × Mark)
  deriving DecidableEq, Repr

/-- Where a flaw was met; characters that are not admitted are counted in octets. -/
def Fault.place (f : Fault) : String :=
  match f.flaw with
  | .controlCharacter offset => if offset = 0 then "" else " at position " ++ toString offset
  | _ => f.mark.suffix

/-- What was being read; its beginning is named if it lies elsewhere. -/
def Fault.context (f : Fault) : String :=
  match f.within with
  | none => ""
  | some (construct, mark) =>
    ", " ++ construct.message ++ (if mark = f.mark then "" else mark.suffix)

def Fault.message (f : Fault) : String := f.flaw.message ++ f.place ++ f.context

end Interchange.Yaml
