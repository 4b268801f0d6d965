import PageCompiler.Script.Literal
import PageCompiler.Text.Lines
import PageCompiler.Text.Space

/-! # Injection scripts

A stylesheet or a piece of markup can be delivered as script: the script waits for the element that
shall hold it, creates a node with the text as content, and then runs a callback.
-/

namespace PageCompiler.Script

/-- An injection: the element that receives the node, and the statements that create the node. -/
structure Injection where
  parent : Text
  statements : List Text

namespace Injection

/-- A `style` element in the head. -/
def stylesheet : Injection where
  parent := "head".toList
  statements := [
    "var node = document.createElement('style');".toList,
    "node.setAttribute('type', 'text/css');".toList,
    "node.appendChild(document.createTextNode(content));".toList]

/-- A `div` element at the end of the body. -/
def markup : Injection where
  parent := "body".toList
  statements := [
    "var node = document.createElement('div');".toList,
    "node.className = 'html-to-js';".toList,
    "node.innerHTML = content;".toList]

/-- The content, one string literal for each of its lines. -/
def contentLiterals (content : Text) : Text :=
  Text.join ",\n".toList
    ((Text.lines content).map fun line => "            ".toList ++ stringLiteral line)

/-- The argument that the script is called with: a function around the callback, or nothing. -/
def callbackArgument (callback : Text) : Text :=
  if Text.isBlank callback then "\x7d(null));".toList
  else "\x7d(function () \x7b\n".toList ++ Text.trimEnd callback ++ "\n\x7d));".toList

/-- The script that injects `content` and then runs `callback`. -/
def script (injection : Injection) (content callback : Text) : Text :=
  "(function (callback) \x7b\n".toList
    ++ "    var inject = function () \x7b\n".toList
    ++ "        var parent = document.getElementsByTagName('".toList ++ injection.parent
    ++ "')[0];\n".toList
    ++ "        if (!parent) \x7b\n".toList
    ++ "            setTimeout(inject, 15);\n".toList
    ++ "            return;\n".toList
    ++ "        \x7d\n".toList
    ++ "        var content = [\n".toList
    ++ contentLiterals content
    ++ "\n        ].join('');\n".toList
    ++ injection.statements.flatMap (fun line => "        ".toList ++ line ++ ['\n'])
    ++ "        parent.appendChild(node);\n".toList
    ++ "        if (callback) \x7b\n".toList
    ++ "            callback();\n".toList
    ++ "        \x7d\n".toList
    ++ "    \x7d;\n".toList
    ++ "    inject();\n".toList
    ++ callbackArgument callback

end Injection

end PageCompiler.Script
