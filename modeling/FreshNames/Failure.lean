import FreshNames.Charset
import FreshNames.Files
import FreshNames.Stream.Reader
import FreshNames.Url

/-!
# What can go wrong with a dictionary

Troubles of reading are of two sorts.  A `Cause` lies in the world outside: files, streams, the net,
bytes that are no text; a dictionary error tells which source could not be read, and has a cause.
A `Mishap` lies in what was asked for, and is passed on as it is.

* `Trouble` - a cause or a mishap;
* `DictionaryError` - a source and the cause why it could not be read;
* `Trouble.blame` - puts a cause down to a source, and leaves a mishap alone.
-/

set_option autoImplicit false

namespace FreshNames

/-! ## Causes -/

/-- Why a request fails. -/
inductive RequestProblem
  /-- Nothing is known of this kind of URL. -/
  | unknownKind (kind : Text)
  /-- Files are read from this host only, and the place begins like a host. -/
  | onlyLocal
  /-- The file is on another host. -/
  | notLocal
  /-- The file system refuses the path. -/
  | refused (p : FileProblem) (path : Text)
  /-- Another error of the system. -/
  | other (message : Text)
  deriving DecidableEq, Repr

/-- The wording of a problem. -/
def RequestProblem.text : RequestProblem → Text
  | unknownKind kind => "unknown url type: ".toList ++ kind
  | onlyLocal => "file:// scheme is supported only on localhost".toList
  | notLocal => "file not on local host".toList
  | refused p path => p.message path
  | other message => message

/-- What keeps a dictionary from being read, in the world outside. -/
inductive Cause
  /-- The file system refuses the path. -/
  | refused (p : FileProblem) (path : Text)
  /-- The stream stops working. -/
  | brokeDown
  /-- The device below a stream does. -/
  | device
  /-- A request fails. -/
  | request (p : RequestProblem)
  /-- The bytes are no text. -/
  | undecodable (f : Charset.Fault)
  /-- The bytes are no text, as a codec says. -/
  | undecodableBy (message : Text)
  /-- Another error of the system, such as those that come from the net. -/
  | system (e : OtherError)
  deriving DecidableEq, Repr

/-- The wording of a cause. -/
def Cause.message : Cause → Text
  | refused p path => p.message path
  | brokeDown => "stream broke down".toList
  | device => "[Errno 5] Input/output error".toList
  | request p => "<urlopen error ".toList ++ p.text ++ ['>']
  | undecodable f => f.message.toList
  | undecodableBy message => message
  | system e => e.message

/-! ## Mishaps -/

/-- What is wrong with what was asked for. -/
inductive Mishap
  /-- The data lacks the mark that the character set needs. -/
  | markMissing (bits : Nat)
  /-- There is no character set of this name. -/
  | unknownCharset (name : Text)
  /-- The name of the character set holds the character that ends names. -/
  | nullInCharset
  /-- So many characters were asked for that their number does not fit into a word. -/
  | beyondWord
  /-- The stream is closed. -/
  | closed
  /-- The stream cannot tell what it is asked for. -/
  | confused
  /-- The path holds the character that ends paths. -/
  | nullInPath
  /-- The source is an ill-formed URL. -/
  | malformedUrl (e : MalformedUrl)
  /-- Characters were asked for and bytes came. -/
  | bytesForText
  /-- Anything else, as it is said outside. -/
  | other (e : OtherError)
  deriving DecidableEq, Repr

/-- The wording of a mishap. -/
def Mishap.message : Mishap → Text
  | markMissing bits => (markMissingMessage bits).toList
  | unknownCharset name => "unknown encoding: ".toList ++ name
  | nullInCharset => "embedded null character".toList
  | beyondWord => beyondWordMessage.toList
  | closed => "I/O operation on closed file.".toList
  | confused => "stream is confused".toList
  | nullInPath => "embedded null byte".toList
  | malformedUrl e => e.message
  | bytesForText => "'in <string>' requires string as left operand, not bytes".toList
  | other e => e.message

/-! ## Troubles -/

/-- Anything that can go wrong while a source is read. -/
inductive Trouble
  | cause (c : Cause)
  | mishap (m : Mishap)
  deriving DecidableEq, Repr

/-- The wording of a trouble. -/
def Trouble.message : Trouble → Text
  | cause c => c.message
  | mishap m => m.message

/-- The trouble that a stream makes. -/
def StreamFailure.trouble : StreamFailure → Trouble
  | brokeDown => .cause .brokeDown
  | device => .cause .device
  | confused => .mishap .confused

/-- The trouble that data makes. -/
def DecodeError.trouble : DecodeError → Trouble
  | fault f => .cause (.undecodable f)
  | markMissing bits => .mishap (.markMissing bits)
  | codec (.undecodable message) => .cause (.undecodableBy message)
  | codec (.other e) => .mishap (.other e)

/-- The trouble of reading. -/
def ReadError.trouble : ReadError → Trouble
  | stream f => f.trouble
  | decode e => e.trouble
  | beyondWord => .mishap .beyondWord

/-- The trouble with a path. -/
def FileError.trouble : FileError → Trouble
  | refused p path => .cause (.refused p path)
  | nullInPath => .mishap .nullInPath

/-! ## Dictionary errors -/

/-- A source, by its text, and why it could not be read. -/
structure DictionaryError where
  source : Text
  cause : Cause
  deriving DecidableEq, Repr

/-- The message about a source and the wording of a cause. -/
def unreadableMessage (source cause : Text) : Text :=
  "Could not read dictionary '".toList ++ source ++ "': \t".toList ++ cause

/-- A dictionary error was not caused by anything, which it has to be. -/
inductive Uncaused
  | uncaused
  deriving DecidableEq, Repr

/-- The wording of the error. -/
def Uncaused.message : Uncaused → String
  | uncaused => "must be caused by another error"

/-- Reports that a source could not be read, and the cause, of which there has to be one. -/
def reportUnreadable (source : Text) (cause? : Option Text) : Except Uncaused Text :=
  match cause? with
  | none => .error .uncaused
  | some cause => .ok (unreadableMessage source cause)

/-- The report of a dictionary error. -/
def DictionaryError.report (e : DictionaryError) : Except Uncaused Text :=
  reportUnreadable e.source (some e.cause.message)

/-- The wording of the error. -/
def DictionaryError.message (e : DictionaryError) : Text := unreadableMessage e.source e.cause.message

theorem DictionaryError.report_eq (e : DictionaryError) : e.report = .ok e.message := rfl

/-- What reading a source ends with if it fails. -/
inductive SourceError
  /-- The source cannot be read, for a cause. -/
  | dictionary (e : DictionaryError)
  /-- A trouble that is passed on as it is. -/
  | bare (t : Trouble)
  deriving DecidableEq, Repr

/-- The wording of the error. -/
def SourceError.message : SourceError → Text
  | dictionary e => e.message
  | bare t => t.message

/-- Puts a cause down to a source, and passes a mishap on as it is. -/
def Trouble.blame (source : Text) : Trouble → SourceError
  | cause c => .dictionary ⟨source, c⟩
  | mishap m => .bare (.mishap m)

theorem Trouble.blame_eq_dictionary_iff {source : Text} {t : Trouble} {e : DictionaryError} :
    t.blame source = .dictionary e ↔ e.source = source ∧ t = .cause e.cause := by
  cases t with
  | cause c =>
    obtain ⟨s, d⟩ := e
    simp [blame, eq_comm]
  | mishap m => simp [blame]

end FreshNames
