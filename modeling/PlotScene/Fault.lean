import PlotScene.LayerKind
import PlotScene.Value.Display

/-!
# Faults

The causes that stop an operation.  A configuration fault is a broken contract of the caller and has
a text for the user; the other causes say in what way a dynamic value or the file system did not fit
what was asked of it.
-/

namespace PlotScene

/-- Why a text is no document, with the position of the character where reading stopped. -/
inductive SyntaxCause where
  | unexpectedMark
  | valueExpected
  | nameExpected
  | colonExpected
  | commaExpected
  | unterminatedText
  | controlCharacter
  | unknownEscape
  | shortEscape
  | extraData
deriving DecidableEq, Repr

def SyntaxCause.text : SyntaxCause → String
  | .unexpectedMark => "Unexpected UTF-8 BOM (decode using utf-8-sig)"
  | .valueExpected => "Expecting value"
  | .nameExpected => "Expecting property name enclosed in double quotes"
  | .colonExpected => "Expecting ':' delimiter"
  | .commaExpected => "Expecting ',' delimiter"
  | .unterminatedText => "Unterminated string starting at"
  | .controlCharacter => "Invalid control character at"
  | .unknownEscape => "Invalid \\escape"
  | .shortEscape => "Invalid \\uXXXX escape"
  | .extraData => "Extra data"

structure SyntaxFault where
  cause : SyntaxCause
  line : Nat
  column : Nat
  offset : Nat
deriving DecidableEq, Repr

def SyntaxFault.message (f : SyntaxFault) : String :=
  f.cause.text ++ ": line " ++ toString f.line ++ " column " ++ toString f.column ++
    " (char " ++ toString f.offset ++ ")"

/-- Why a file cannot be opened, read or written. -/
inductive FileCause where
  | missing
  | exists
  | notADirectory
  | isADirectory
deriving DecidableEq, Repr

def FileCause.number : FileCause → Nat
  | .missing => 2
  | .exists => 17
  | .notADirectory => 20
  | .isADirectory => 21

def FileCause.text : FileCause → String
  | .missing => "No such file or directory"
  | .exists => "File exists"
  | .notADirectory => "Not a directory"
  | .isADirectory => "Is a directory"

structure FileFault where
  cause : FileCause
  path : String
deriving DecidableEq, Repr

def FileFault.message (f : FileFault) : String :=
  "[Errno " ++ toString f.cause.number ++ "] " ++ f.cause.text ++ ": " ++ Text.quoted f.path

/-- Broken contracts of the caller. -/
inductive ConfigurationFault where
  | optionsNotPairs
  | optionWithoutValue (name : Value)
  | optionNameNotText (position : Nat) (typeName : String)
  | coordinateLengths (x y : Nat)
  | aestheticLength (name : String) (length x : Nat)
  | unreadableFile (path : String) (fault : FileFault)
  | notADocument (path : String) (fault : SyntaxFault)
  | notAnObject (path : String)

def ConfigurationFault.message : ConfigurationFault → String
  | .optionsNotPairs => "输出选项必须是映射或名称/取值交替的序列"
  | .optionWithoutValue name => "输出选项 " ++ name.quoted ++ " 缺少取值"
  | .optionNameNotText position typeName =>
      "第 " ++ toString position ++ " 个输出选项名必须是字符串，实际为 " ++ typeName
  | .coordinateLengths x y => "x 与 y 长度不一致（" ++ toString x ++ " != " ++ toString y ++ "）"
  | .aestheticLength name length x =>
      name ++ " 长度 " ++ toString length ++ " 与 x 长度 " ++ toString x ++ " 不一致"
  | .unreadableFile path fault => "无法读取绘图描述文件 " ++ path ++ ": " ++ fault.message
  | .notADocument path fault =>
      "绘图描述文件 " ++ path ++ " 不是合法 JSON: " ++ fault.message
  | .notAnObject path => "绘图描述文件 " ++ path ++ " 的顶层必须是 JSON 对象"

/-- Why a value cannot be read as a number or as a rectangular array of numbers. -/
inductive NumberFault where
  | unreadable (text : String)
  | notANumber (typeName : String)
  | ragged (shape : List Nat)
  | outOfRange
deriving DecidableEq, Repr

def NumberFault.message : NumberFault → String
  | .unreadable text => "could not convert string to float: " ++ Text.quoted text
  | .notANumber typeName =>
      "float() argument must be a string or a real number, not '" ++ typeName ++ "'"
  | .ragged shape =>
      "setting an array element with a sequence. The requested array has an inhomogeneous shape " ++
        "after " ++ toString shape.length ++ " dimensions. The detected shape was " ++
        Text.shape shape ++ " + inhomogeneous part."
  | .outOfRange => "int too large to convert to float"

inductive Fault where
  | configuration (f : ConfigurationFault)
  | notAStatistic (kind : LayerKind)
  | kindTaken (kind : LayerKind) (present offered : String)
  | unknownEvent (kind : String)
  | number (f : NumberFault)
  /-- A field was asked of a value that has no fields. -/
  | noFields (typeName : String)
  | notIterable (typeName : String)
  | unhashable (typeName : String)
  /-- A value of another type was needed. -/
  | wrongType
  /-- The value has the right type and cannot be used. -/
  | unusable
  | missingKey
  | outOfBounds
  | file (f : FileFault)
  | undecodable
  | invalidSetting

namespace Fault

/-- The text of a fault that has one for the user. -/
def message? : Fault → Option String
  | .configuration f => some f.message
  | .notAStatistic kind => some (kind.name ++ " 不是统计图层类别")
  | .kindTaken kind present offered =>
      some ("图层类别冲突: '" ++ kind.name ++ "' 已由 " ++ present ++ " 注册，新注册来源 " ++ offered ++
        "。如需覆盖请传入 allow_override=True")
  | .unknownEvent kind => some ("未知的图例事件: " ++ kind)
  | _ => none

end Fault

end PlotScene
