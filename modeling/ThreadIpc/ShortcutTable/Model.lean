import ThreadIpc.Lib.Relational
import Mathlib.Algebra.Order.Ring.Int

/-!
# The shortcut table and its upgrades

An upgrade is the list of SQL statements that it executes between `BEGIN` and `COMMIT`; a nested
`MaybeCreateTableVersionN` starts no transaction of its own, its statements join the outer one.
Statement `index` of an upgrade may fail (`fails index`), and then nothing of it is committed.
Numbers are compared and stored as SQLite's 64-bit integers, `column_int` keeps the low 32 bits.
-/

namespace ThreadIpc.ShortcutTable
open Lib.Relational

inductive Column
  | shortcutID | origin | name | appUrl | icoUrl | msg
  | icon16x16Url | icon32x32Url | icon48x48Url | icon128x128Url | allow | iconUrl
  deriving DecidableEq, Repr

inductive TableName
  | shortcut | shortcutOld | shortcutIcon
  deriving DecidableEq, Repr

inductive Version
  | three | four | five
  deriving DecidableEq, Repr

abbrev Database := Lib.Relational.Database Column TableName
abbrev Statement := Lib.Relational.Statement Column TableName

def shortcutVersion3 : Schema Column where
  columns := [.origin, .name, .appUrl, .icoUrl, .msg]
  rowidAlias := none
  notNull := []
  unique := [[.origin, .name]]

def shortcutVersion4 : Schema Column where
  columns := [.shortcutID, .origin, .name, .appUrl, .msg]
  rowidAlias := some .shortcutID
  notNull := [.origin, .name, .appUrl, .msg]
  unique := [[.origin, .name]]

def shortcutVersion5 : Schema Column where
  columns := [.shortcutID, .origin, .name, .appUrl, .msg, .allow]
  rowidAlias := some .shortcutID
  notNull := [.origin, .name, .appUrl, .msg, .allow]
  unique := [[.origin, .name]]

def shortcutVersion6 : Schema Column where
  columns := [.shortcutID, .origin, .name, .appUrl, .msg, .icon16x16Url, .icon32x32Url,
    .icon48x48Url, .icon128x128Url, .allow]
  rowidAlias := some .shortcutID
  notNull := [.origin, .name, .appUrl, .msg, .icon16x16Url, .icon32x32Url, .icon48x48Url,
    .icon128x128Url, .allow]
  unique := [[.origin, .name]]

def shortcutIcon : Schema Column where
  columns := [.shortcutID, .iconUrl]
  rowidAlias := none
  notNull := [.shortcutID, .iconUrl]
  unique := [[.shortcutID, .iconUrl]]

def Version.schema : Version → Schema Column
  | .three => shortcutVersion3
  | .four => shortcutVersion4
  | .five => shortcutVersion5

def maybeCreateTableVersion4 : List Statement :=
  [.createIfNotExists .shortcut shortcutVersion4, .createIfNotExists .shortcutIcon shortcutIcon]

def maybeCreateTableVersion5 : List Statement :=
  [.createIfNotExists .shortcut shortcutVersion5, .createIfNotExists .shortcutIcon shortcutIcon]

def maybeCreateTableVersion6 : List Statement :=
  [.createIfNotExists .shortcut shortcutVersion6]

def emptyText : Expr Column := .literal (.text "")

def populateVersion4 : List (Expr Column) :=
  [.rowid, .column .origin, .column .name, .column .appUrl, .column .msg]

def populateVersion5 : List (Expr Column) :=
  [.rowid, .column .origin, .column .name, .column .appUrl, .column .msg, .literal (.integer 1)]

/-- The aliases that the query gives to its columns play no part in the insertion. -/
def populateVersion6 : List (Expr Column) :=
  [.rowid, .column .origin, .column .name, emptyText, emptyText, emptyText, emptyText,
    .column .appUrl, .column .msg, .column .allow]

def upgradeFromVersion3ToVersion4 (fails : Nat → Bool) : Database → Option Database :=
  Database.transaction fails (.rename .shortcut .shortcutOld :: (maybeCreateTableVersion4 ++
    [.insertSelect .shortcut populateVersion4 .shortcutOld,
      .insertSelect .shortcutIcon [.rowid, .column .icoUrl] .shortcutOld,
      .drop .shortcutOld]))

def upgradeFromVersion4ToVersion5 (fails : Nat → Bool) : Database → Option Database :=
  Database.transaction fails (.rename .shortcut .shortcutOld :: (maybeCreateTableVersion5 ++
    [.insertSelect .shortcut populateVersion5 .shortcutOld,
      .drop .shortcutOld]))

def upgradeFromVersion5ToVersion6 (fails : Nat → Bool) : Database → Option Database :=
  Database.transaction fails (.rename .shortcut .shortcutOld :: (maybeCreateTableVersion6 ++
    [.insertSelect .shortcut populateVersion6 .shortcutOld,
      .drop .shortcutOld, .drop .shortcutIcon]))

def upgradeFrom (fails : Version → Nat → Bool) : Version → Database → Option Database
  | .three, db => ((upgradeFromVersion3ToVersion4 (fails .three) db).bind
      (upgradeFromVersion4ToVersion5 (fails .four))).bind
        (upgradeFromVersion5ToVersion6 (fails .five))
  | .four, db => (upgradeFromVersion4ToVersion5 (fails .four) db).bind
      (upgradeFromVersion5ToVersion6 (fails .five))
  | .five, db => upgradeFromVersion5ToVersion6 (fails .five) db

def columnText16Safe : Value → String
  | .null => ""
  | .integer value => toString value
  | .text value => value

/-- A text counts as the number that it starts with. -/
def textInteger (text : String) : Int :=
  let digits (rest : List Char) : Int :=
    (rest.takeWhile Char.isDigit).foldl (fun value digit => value * 10 + (digit.toNat - 48)) 0
  match text.toList.dropWhile Char.isWhitespace with
  | '-' :: rest => max (-digits rest) (-2 ^ 63)
  | '+' :: rest => min (digits rest) (2 ^ 63 - 1)
  | rest => min (digits rest) (2 ^ 63 - 1)

def columnInt : Value → Int
  | .null => 0
  | .integer value => value.bmod (2 ^ 32)
  | .text value => (textInteger value).bmod (2 ^ 32)

structure Shortcut where
  appUrl : String
  icon16x16Url : String
  icon32x32Url : String
  icon48x48Url : String
  icon128x128Url : String
  msg : String
  allow : Bool
  deriving DecidableEq

def getShortcut (db : Database) (origin name : String) : Option Shortcut := do
  let table ← db .shortcut
  let rows ← table.select [.column .appUrl, .column .msg, .column .allow, .column .icon16x16Url,
    .column .icon32x32Url, .column .icon48x48Url, .column .icon128x128Url]
    [(.origin, .text origin), (.name, .text name)]
  let row ← rows.head?
  let column (index : Nat) : Value := row.getD index .null
  some {
    appUrl := columnText16Safe (column 0)
    msg := columnText16Safe (column 1)
    allow := columnInt (column 2) ≠ 0
    icon16x16Url := columnText16Safe (column 3)
    icon32x32Url := columnText16Safe (column 4)
    icon48x48Url := columnText16Safe (column 5)
    icon128x128Url := columnText16Safe (column 6) }

end ThreadIpc.ShortcutTable
